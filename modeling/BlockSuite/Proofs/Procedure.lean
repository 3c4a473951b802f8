import BlockSuite.Proofs.Action
import BlockSuite.Proofs.Dict
import BlockSuite.Proofs.Name
import BlockSuite.Procedure

/-!
How the arguments of a call meet the parameters of a procedure. A parameter that the call does not
supply is bound to the first default that is declared for its name, if there is one, and else it is
not bound by the call at all.
-/

namespace BlockSuite

/-- A value unless it is null. -/
def Value.given? : Value → Option Value
  | .null => none
  | v => some v

/-- The default for a name: the first that is declared, should several parameters have the name. -/
def Param.default? (params : List Param) (name : String) : Option Value :=
  params.findSome? fun p => if p.name = name then p.default.given? else none

namespace Param

/-- Written parameters have no defaults. -/
lemma ofItem?_bare {item : String} {p : Param} (h : ofItem? item = some (.ok p)) :
    p.default = .null := by
  rw [ofItem?] at h
  dsimp only at h
  split at h
  · cases h
  · cases hname : Check.variableName (.text (Text.trim (Text.cutAt ':' item).1)) with
    | error issues =>
      rw [hname] at h
      cases h
    | ok name =>
      rw [hname] at h
      cases h
      rfl

lemma mem_of_mapM {ε α : Type} {items : List (Except ε α)} {as : List α}
    (h : items.mapM id = .ok as) {a : α} (ha : a ∈ as) : .ok a ∈ items := by
  induction items generalizing as with
  | nil =>
    cases h
    cases ha
  | cons x rest ih =>
    rw [List.mapM_cons] at h
    obtain ⟨b, hx, h₁⟩ := except_bind_ok h
    obtain ⟨bs, hrest, h₂⟩ := except_bind_ok h₁
    cases h₂
    rcases List.mem_cons.mp ha with rfl | ha
    · exact List.mem_cons.mpr (.inl hx.symm)
    · exact List.mem_cons_of_mem _ (ih hrest ha)

lemma ofText_bare {s : String} {params : List Param} (h : ofText s = .ok params) :
    ∀ p ∈ params, p.default = .null := by
  intro p hp
  obtain ⟨item, -, hitem⟩ := List.mem_filterMap.mp (mem_of_mapM h hp)
  exact ofItem?_bare hitem

/-- A parameter that is declared by nothing but its name. -/
def named (name : String) : Param := ⟨name, anyType, .null, none⟩

lemma ofItem?_named {item name : String} (h : Name.isVariable name = true)
    (hitem : item.toList = name.toList ∨ item.toList = ' ' :: name.toList) :
    ofItem? item = some (.ok (named name)) := by
  have hcolon : ':' ∉ item.toList := by
    have hname : ':' ∉ name.toList := Name.not_mem_of_isVariable h (by decide) (by decide)
    rcases hitem with hitem | hitem <;> rw [hitem]
    · exact hname
    · exact List.not_mem_cons_of_ne_of_not_mem (by decide) hname
  have htrim : Text.trim item = name := by
    have hblank : Text.trimChars item.toList = Text.trimChars name.toList := by
      rcases hitem with hitem | hitem <;> rw [hitem]
      rfl
    rw [Text.trim, hblank]
    exact Text.trim_words (Name.words_of_isVariable h)
  have hfull : name.isEmpty = false := by
    rw [← Bool.not_eq_true, String.isEmpty_iff]
    rintro rfl
    cases h
  have hcheck : Check.variableName (.text name) = .ok name := by
    change (if Name.isVariable name then pure name else _ : Checked String) = _
    rw [h]
    rfl
  rw [ofItem?, Text.cutAt_of_not_mem hcolon]
  dsimp only
  rw [htrim, hfull, hcheck]
  rfl

lemma mapM_ok {ε α : Type} (as : List α) :
    (as.map Except.ok : List (Except ε α)).mapM id = .ok as := by
  induction as with
  | nil => rfl
  | cons a rest ih =>
    rw [List.map_cons, List.mapM_cons, ih]
    rfl

lemma ofItem?_names {names : List String} (h : ∀ name ∈ names, Name.isVariable name = true) :
    (names.map fun name => String.ofList (' ' :: name.toList)).filterMap ofItem? =
      names.map fun name => .ok (named name) := by
  induction names with
  | nil => rfl
  | cons name rest ih =>
    have hfirst : ofItem? (String.ofList (' ' :: name.toList)) = some (.ok (named name)) :=
      ofItem?_named (h name List.mem_cons_self) (.inr String.toList_ofList)
    rw [List.map_cons, List.filterMap_cons_some hfirst,
      ih fun x hx => h x (List.mem_cons_of_mem _ hx)]
    rfl

/-- Names that are written with commas between them are read back. -/
lemma ofText_names {names : List String} (h : ∀ name ∈ names, Name.isVariable name = true) :
    ofText (", ".intercalate names) = .ok (names.map named) := by
  have hcomma {name : String} (hname : name ∈ names) : ',' ∉ name.toList :=
    Name.not_mem_of_isVariable (h name hname) (by decide) (by decide)
  have hitems : (Text.splitAt ',' (", ".intercalate names)).filterMap ofItem? =
      (names.map named).map .ok := by
    cases names with
    | nil => rfl
    | cons name rest =>
      have hfirst : ofItem? name = some (.ok (named name)) :=
        ofItem?_named (h name List.mem_cons_self) (.inl rfl)
      have hsplit := Text.splitAt_intercalate (hcomma List.mem_cons_self)
        fun x hx => hcomma (List.mem_cons_of_mem _ hx)
      rw [hsplit, List.filterMap_cons_some hfirst,
        ofItem?_names fun x hx => h x (List.mem_cons_of_mem _ hx), List.map_map]
      rfl
  rw [ofText, hitems]
  exact mapM_ok _

end Param

namespace Value

variable {es : List (Value × Value)} {e : Value × Value} {k name : String} {v w : Value}
  {o : Option Value}

lemma same_text {v : Value} {s : String} (h : same v (.text s) = true) : v = .text s := by
  cases v with
  | text t =>
    rw [same] at h
    rw [beq_iff_eq.mp h]
  | float d => cases d <;> cases h
  | _ => cases h

lemma mem_bindKey (h : e ∈ bindKey es (.text k) w) : e = (.text k, w) ∨ e ∈ es := by
  induction es with
  | nil => exact .inl (List.mem_singleton.mp h)
  | cons e' rest ih =>
    obtain ⟨k', v'⟩ := e'
    rw [bindKey] at h
    split at h
    · next hsame =>
      rw [same_text hsame] at h
      exact (List.mem_cons.mp h).imp id (List.mem_cons_of_mem _)
    · rcases List.mem_cons.mp h with rfl | h
      · exact .inr List.mem_cons_self
      · exact (ih h).imp id (List.mem_cons_of_mem _)

lemma mem_bindKey_self (es : List (Value × Value)) (k : String) (w : Value) :
    (.text k, w) ∈ bindKey es (.text k) w := by
  induction es with
  | nil => simp [bindKey]
  | cons e rest ih =>
    obtain ⟨k', v'⟩ := e
    rw [bindKey]
    split
    · next hsame =>
      rw [same_text hsame]
      exact List.mem_cons_self
    · exact List.mem_cons_of_mem _ ih

lemma mem_bindKey_of_ne (h : e ∈ es) (hne : e.1 ≠ .text k) (w : Value) :
    e ∈ bindKey es (.text k) w := by
  induction es with
  | nil => cases h
  | cons e' rest ih =>
    obtain ⟨k', v'⟩ := e'
    rw [bindKey]
    split
    · next hsame =>
      rcases List.mem_cons.mp h with rfl | h
      · exact absurd (same_text hsame) hne
      · exact List.mem_cons_of_mem _ h
    · rcases List.mem_cons.mp h with rfl | h
      · exact List.mem_cons_self
      · exact List.mem_cons_of_mem _ (ih h)

/-- A key that is there keeps its spelling. -/
lemma exists_bindKey (h : e ∈ es) (key w : Value) : ∃ e' ∈ bindKey es key w, e'.1 = e.1 := by
  induction es with
  | nil => cases h
  | cons e' rest ih =>
    obtain ⟨k', v'⟩ := e'
    rw [bindKey]
    split
    · rcases List.mem_cons.mp h with rfl | h
      · exact ⟨_, List.mem_cons_self, rfl⟩
      · exact ⟨e, List.mem_cons_of_mem _ h, rfl⟩
    · rcases List.mem_cons.mp h with rfl | h
      · exact ⟨_, List.mem_cons_self, rfl⟩
      · obtain ⟨e', he', hkey⟩ := ih h
        exact ⟨e', List.mem_cons_of_mem _ he', hkey⟩

/-! ### What a mapping binds a name to -/

/-- What the members of a mapping bind a name to, their keys being read as texts. -/
inductive Binds (es : List (Value × Value)) (name : String) : Option Value → Prop
  | free (h : ∀ e ∈ es, Check.text e.1 ≠ .ok name) : Binds es name none
  | bound {v : Value} (mem : (.text name, v) ∈ es)
    (only : ∀ e ∈ es, Check.text e.1 = .ok name → e.2 = v) : Binds es name (some v)

lemma Binds.member?_eq (h : Binds es name o) : member? es name = o := by
  cases h with
  | free h =>
    induction es with
    | nil => rfl
    | cons e rest ih =>
      have hrest := ih fun x hx => h x (List.mem_cons_of_mem _ hx)
      have he := h e List.mem_cons_self
      obtain ⟨k, v⟩ := e
      cases k with
      | text s =>
        have hs : s ≠ name := fun heq => he (by rw [heq]; rfl)
        simp [member?, hs, hrest]
      | _ => simpa [member?] using hrest
  | @bound v mem only =>
    induction es with
    | nil => cases mem
    | cons e rest ih =>
      obtain ⟨k, w⟩ := e
      have hrest (hmem : (.text name, v) ∈ rest) : member? rest name = some v :=
        ih hmem fun x hx => only x (List.mem_cons_of_mem _ hx)
      by_cases hk : k = .text name
      · subst hk
        have hw : w = v := only (.text name, w) List.mem_cons_self rfl
        simp [member?, hw]
      · have hmem : (.text name, v) ∈ rest := by
          rcases List.mem_cons.mp mem with heq | hmem
          · exact absurd (Prod.mk.inj heq).1.symm hk
          · exact hmem
        cases k with
        | text s =>
          have hs : s ≠ name := fun heq => hk (by rw [heq])
          simp [member?, hs, hrest hmem]
        | _ => simpa [member?] using hrest hmem

lemma Binds.bindKey_ne (h : Binds es name o) (hne : k ≠ name) (w : Value) :
    Binds (bindKey es (.text k) w) name o := by
  have hkey : Check.text (.text k) ≠ .ok name := fun heq => hne (Except.ok.inj heq)
  cases h with
  | free h =>
    refine .free fun e he => ?_
    rcases mem_bindKey he with rfl | he
    · exact hkey
    · exact h e he
  | bound mem only =>
    refine .bound (mem_bindKey_of_ne mem (fun heq => hne (Value.text.inj heq).symm) w) ?_
    intro e he hread
    rcases mem_bindKey he with rfl | he
    · exact absurd hread hkey
    · exact only e he hread

lemma Binds.bindKey_self (h : Binds es name none) (w : Value) :
    Binds (bindKey es (.text name) w) name (some w) := by
  cases h with
  | free h =>
    refine .bound (mem_bindKey_self es name w) fun e he hread => ?_
    rcases mem_bindKey he with rfl | he
    · rfl
    · exact absurd hread (h e he)

end Value

/-! ### Mappings with texts as keys -/

namespace Check

variable {es : List (Value × Value)} {args : Dict Value} {name : String} {o : Option Value}

lemma membersOf_text (k : String) (v : Value) (rest : List (Value × Value)) :
    membersOf text any ((.text k, v) :: rest) =
      (membersOf text any rest).map fun ps => (k, v) :: ps := by
  have hany : any v = .ok v := rfl
  cases h : membersOf text any rest <;> simp [membersOf, h, text, hany, Checked.both, Except.map]

lemma mem_membersOf {ps : List (String × Value)} (h : membersOf text any es = .ok ps)
    {n : String} {v : Value} : (n, v) ∈ ps ↔ ∃ e ∈ es, text e.1 = .ok n ∧ e.2 = v := by
  induction es generalizing ps with
  | nil =>
    cases h
    simp
  | cons e rest ih =>
    obtain ⟨k, w⟩ := e
    have hany : any w = .ok w := rfl
    cases hk : text k with
    | error issues =>
      cases hr : membersOf text any rest <;>
        simp [membersOf, hk, hr, hany, Checked.both, Checked.within, Except.map,
          Except.mapError] at h
    | ok s =>
      cases hr : membersOf text any rest with
      | error issues =>
        simp [membersOf, hk, hr, hany, Checked.both, Except.map] at h
      | ok qs =>
        have hps : (s, w) :: qs = ps := by
          simpa [membersOf, hk, hr, hany, Checked.both, Except.map] using h
        subst hps
        simp [ih hr, hk, eq_comm]

lemma mapping_members (h : mapping text any (.dict es) = .ok args) :
    ∃ ps, membersOf text any es = .ok ps ∧ args = Dict.ofPairs ps := by
  cases hm : membersOf text any es with
  | error issues =>
    rw [mapping, hm] at h
    cases h
  | ok ps =>
    rw [mapping, hm] at h
    exact ⟨ps, rfl, (Except.ok.inj h).symm⟩

/-- A mapping that is read binds a name as its members do. -/
lemma mapping_get? (h : mapping text any (.dict es) = .ok args) (hb : Value.Binds es name o) :
    args.get? name = o := by
  obtain ⟨ps, hm, rfl⟩ := mapping_members h
  rw [Dict.ofPairs]
  cases hb with
  | free h =>
    refine Dict.get?_update_of_not_mem fun hmem => ?_
    obtain ⟨⟨n, v⟩, hp, rfl⟩ := List.mem_map.mp hmem
    obtain ⟨e, he, hread, -⟩ := (mem_membersOf hm).mp hp
    exact h e he hread
  | bound mem only =>
    refine Dict.get?_update_of_mem ((mem_membersOf hm).mpr ⟨_, mem, rfl, rfl⟩) fun w hw => ?_
    obtain ⟨e, he, hread, rfl⟩ := (mem_membersOf hm).mp hw
    exact only e he hread

/-- What a mapping that is read binds a name to is one of its members. -/
lemma mapping_mem (h : mapping text any (.dict es) = .ok args) {v : Value}
    (hv : args.get? name = some v) : ∃ e ∈ es, e.2 = v := by
  obtain ⟨ps, hm, rfl⟩ := mapping_members h
  have hp : (name, v) ∈ ps := by simpa using Dict.mem_update (Dict.mem_of_get? hv)
  obtain ⟨e, he, -, hev⟩ := (mem_membersOf hm).mp hp
  exact ⟨e, he, hev⟩

lemma mapping_isSome (h : mapping text any (.dict es) = .ok args)
    (hname : ∃ e ∈ es, text e.1 = .ok name) : (args.get? name).isSome = true := by
  obtain ⟨e, he, hread⟩ := hname
  obtain ⟨ps, hm, rfl⟩ := mapping_members h
  have hp : (name, e.2) ∈ ps := (mem_membersOf hm).mpr ⟨e, he, hread, rfl⟩
  have hkey : name ∈ Dict.keys (Dict.ofPairs ps) := by
    rw [Dict.keys_ofPairs, List.mem_eraseDups]
    exact List.mem_map.mpr ⟨_, hp, rfl⟩
  rw [Option.isSome_iff_ne_none, Ne, Dict.get?_eq_none_iff, not_not]
  exact hkey

/-- A mapping with texts as keys is read as it is. -/
lemma mapping_record (d : Dict Value) : mapping text any (.record d) = .ok (Dict.ofPairs d) := by
  have hmembers : membersOf text any (d.map fun e => (.text e.1, e.2)) = .ok d := by
    induction d with
    | nil => rfl
    | cons e rest ih =>
      rw [List.map_cons, membersOf_text, ih]
      rfl
  rw [Value.record, mapping, hmembers]
  rfl

lemma mapping_keys (h : mapping text any (.dict es) = .ok args) : args.keys.Nodup := by
  obtain ⟨ps, -, rfl⟩ := mapping_members h
  exact Dict.nodup_keys_ofPairs ps

end Check

/-! ### Binding parameters -/

namespace Arguments

variable {params : List Param} {values : List Value} {bound : List (Value × Value)} {name : String}
  {o : Option Value}

/-- Whether arguments supply a parameter: an argument has its name, or it stands at a position that
has a value. -/
def Supplies (p : Procedure) (name : String) : Arguments → Prop
  | named es => ∃ e ∈ es, Check.text e.1 = .ok name
  | positional values => name ∈ (p.params.take values.length).map (·.name)

/-- Behind the last value a name is bound as before, or else to its default. -/
lemma bindFrom_defaults (h : Value.Binds bound name o) (params : List Param) :
    Value.Binds (bindFrom bound [] params) name (o.or (Param.default? params name)) := by
  induction params generalizing bound o with
  | nil => simpa [bindFrom, Param.default?] using h
  | cons p params ih =>
    have hskip (hdefault : Param.default? (p :: params) name = Param.default? params name) :
        Value.Binds (bindFrom bound [] params) name
          (o.or (Param.default? (p :: params) name)) := by
      rw [hdefault]
      exact ih h
    rw [bindFrom]
    split
    · next hnull => exact hskip (by simp [Param.default?, hnull, Value.given?])
    · next hnull =>
      have hgiven : p.default.given? = some p.default := by
        unfold Value.given?
        split
        · next heq => exact absurd heq hnull
        · rfl
      by_cases hp : p.name = name
      · have hdefault : Param.default? (p :: params) name = some p.default := by
          simp [Param.default?, hp, hgiven]
        rw [hp, h.member?_eq]
        cases o with
        | some v => exact ih h
        | none =>
          rw [hdefault]
          exact ih (h.bindKey_self p.default)
      · have hdefault : Param.default? (p :: params) name = Param.default? params name := by
          simp [Param.default?, hp]
        split
        · exact hskip hdefault
        · rw [hdefault]
          exact ih (h.bindKey_ne hp p.default)

/-- A name that no position supplies is bound as before, or else to its default. -/
lemma bindFrom_binds (h : Value.Binds bound name o)
    (hname : name ∉ (params.take values.length).map (·.name)) :
    Value.Binds (bindFrom bound values params) name (o.or (Param.default? params name)) := by
  induction params generalizing bound values with
  | nil => simpa [bindFrom, Param.default?] using h
  | cons p params ih =>
    cases values with
    | nil => exact bindFrom_defaults h _
    | cons v values =>
      obtain ⟨hne, hrest⟩ : ¬name = p.name ∧ name ∉ (params.take values.length).map (·.name) := by
        simpa using hname
      have hdefault : Param.default? (p :: params) name = Param.default? params name := by
        simp [Param.default?, Ne.symm hne]
      rw [bindFrom, hdefault]
      exact ih (h.bindKey_ne (Ne.symm hne) v) hrest

lemma bindFrom_keeps (h : ∃ e ∈ bound, Check.text e.1 = .ok name) (values : List Value)
    (params : List Param) :
    ∃ e ∈ bindFrom bound values params, Check.text e.1 = .ok name := by
  have hbind {bound : List (Value × Value)} (h : ∃ e ∈ bound, Check.text e.1 = .ok name)
      (key w : Value) : ∃ e ∈ Value.bindKey bound key w, Check.text e.1 = .ok name := by
    obtain ⟨e, he, hread⟩ := h
    obtain ⟨e', he', hkey⟩ := Value.exists_bindKey he key w
    exact ⟨e', he', by rw [hkey, hread]⟩
  induction params generalizing bound values with
  | nil => exact h
  | cons p params ih =>
    cases values with
    | cons v values => exact ih (hbind h _ _) values
    | nil =>
      rw [bindFrom]
      split
      · exact ih h []
      · split
        · exact ih h []
        · exact ih (hbind h _ _) []

/-- A parameter at a position that has a value is bound. -/
lemma bindFrom_supplies (h : name ∈ (params.take values.length).map (·.name)) :
    ∃ e ∈ bindFrom bound values params, Check.text e.1 = .ok name := by
  induction params generalizing bound values with
  | nil => simp at h
  | cons p params ih =>
    cases values with
    | nil => simp at h
    | cons v values =>
      rw [bindFrom]
      by_cases hp : p.name = name
      · refine bindFrom_keeps ⟨_, Value.mem_bindKey_self _ _ _, ?_⟩ _ _
        rw [hp]
        rfl
      · refine ih ?_
        simpa [Ne.symm hp] using h

/-- What is bound depends on nothing but the names and the defaults of the parameters. -/
lemma bindFrom_congr {params params' : List Param}
    (h : params.map (fun p => (p.name, p.default)) = params'.map fun p => (p.name, p.default))
    (bound : List (Value × Value)) (values : List Value) :
    bindFrom bound values params = bindFrom bound values params' := by
  induction params generalizing bound values params' with
  | nil =>
    obtain rfl : params' = [] := by simpa using h.symm
    rfl
  | cons p params ih =>
    cases params' with
    | nil => simp at h
    | cons q params' =>
      obtain ⟨⟨hname, hdefault⟩, hrest⟩ : (p.name = q.name ∧ p.default = q.default) ∧
          params.map (fun p => (p.name, p.default)) = params'.map fun p => (p.name, p.default) := by
        simpa using h
      cases values with
      | cons v values => rw [bindFrom, bindFrom, hname, ih hrest]
      | nil =>
        rw [bindFrom, bindFrom, hname, hdefault]
        cases q.default <;> simp only [ih hrest]

/-- Without defaults nothing is bound beside the arguments. -/
lemma bindFrom_bare (h : ∀ p ∈ params, p.default = .null) : bindFrom bound [] params = bound := by
  induction params with
  | nil => rfl
  | cons p params ih =>
    rw [bindFrom, h p List.mem_cons_self]
    exact ih fun q hq => h q (List.mem_cons_of_mem _ hq)

/-! ### Arguments by the names of parameters -/

/-- The members of a dictionary as those of a mapping. -/
def members (d : Dict Value) : List (Value × Value) := d.map fun e => (.text e.1, e.2)

lemma bindKey_members (d : Dict Value) (key : String) (v : Value) :
    Value.bindKey (members d) (.text key) v = members (d.set key v) := by
  induction d with
  | nil => rfl
  | cons e rest ih =>
    have hcons : Value.bindKey (members (e :: rest)) (.text key) v =
        if e.1 == key then (.text e.1, v) :: members rest
        else (.text e.1, e.2) :: Value.bindKey (members rest) (.text key) v := by
      simp [members, Value.bindKey, Value.same]
    rw [hcons, Dict.set, ih]
    split
    · next hkey => rw [beq_iff_eq.mp hkey]; rfl
    · rfl

/-- With texts as keys, what a call binds beside its arguments are defaults of parameters. -/
lemma bindFrom_members (d : Dict Value) (params : List Param) :
    ∃ d', bindFrom (members d) [] params = members d' ∧
      ∀ e ∈ d', e ∈ d ∨ ∃ p ∈ params, e.2 = p.default := by
  induction params generalizing d with
  | nil => exact ⟨d, rfl, fun e he => .inl he⟩
  | cons p params ih =>
    have hkeep : ∃ d', bindFrom (members d) [] params = members d' ∧
        ∀ e ∈ d', e ∈ d ∨ ∃ q ∈ p :: params, e.2 = q.default := by
      obtain ⟨d', hbind, hmem⟩ := ih d
      refine ⟨d', hbind, fun e he => (hmem e he).imp id ?_⟩
      rintro ⟨q, hq, he⟩
      exact ⟨q, List.mem_cons_of_mem _ hq, he⟩
    rw [bindFrom]
    split
    · exact hkeep
    · split
      · exact hkeep
      · rw [bindKey_members]
        obtain ⟨d', hbind, hmem⟩ := ih (d.set p.name p.default)
        refine ⟨d', hbind, fun e he => ?_⟩
        rcases hmem e he with he | ⟨q, hq, he⟩
        · rcases Dict.mem_set he with rfl | he
          · exact .inr ⟨p, List.mem_cons_self, rfl⟩
          · exact .inl he
        · exact .inr ⟨q, List.mem_cons_of_mem _ hq, he⟩

/-- A call with one argument under a name binds it, and beside it defaults of parameters. -/
lemma bindFrom_member (name : String) (v : Value) (params : List Param) :
    ∃ d : Dict Value, bindFrom [(.text name, v)] [] params = members d ∧
      (Dict.ofPairs d).get? name = some v ∧
      ∀ e ∈ Dict.ofPairs d, e = (name, v) ∨ ∃ p ∈ params, e.2 = p.default := by
  obtain ⟨d, hbind, hmem⟩ := bindFrom_members [(name, v)] params
  have hone : Value.Binds (members [(name, v)]) name (some v) :=
    .bound List.mem_cons_self fun e he _ => by rw [List.mem_singleton.mp he]
  have hbinds : Value.Binds (members d) name (some v) := by
    rw [← hbind]
    exact bindFrom_defaults hone params
  refine ⟨d, hbind, Check.mapping_get? (Check.mapping_record d) hbinds, fun e he => ?_⟩
  have hd : e ∈ d := by simpa using Dict.mem_update he
  exact (hmem e hd).imp List.mem_singleton.mp id

end Arguments

section Arguments

variable {p : Procedure} {v : Value} {bound : List (Value × Value)} {args : Dict Value}
  {name : String}

/-- The arguments of a call are bound from those under names, or by position from none. -/
lemma Procedure.arguments_eq (h : p.arguments v = .ok bound) :
    (∃ es, Arguments.ofValue v = .named es ∧ bound = Arguments.bindFrom es [] p.params) ∨
    ∃ values, Arguments.ofValue v = .positional values ∧
      bound = Arguments.bindFrom [] values p.params := by
  unfold Procedure.arguments at h
  cases ha : Arguments.ofValue v with
  | named es =>
    rw [ha] at h
    cases h
    exact .inl ⟨es, rfl, rfl⟩
  | positional values =>
    rw [ha] at h
    by_cases hlength : p.params.length < values.length
    · simp [Arguments.bind, hlength] at h
    · exact .inr ⟨values, rfl, by simpa [Arguments.bind, hlength, eq_comm] using h⟩

/-- A parameter that a call supplies is bound by the call. -/
lemma Procedure.arguments_supplied (h : p.arguments v = .ok bound)
    (hargs : Check.mapping Check.text Check.any (.dict bound) = .ok args)
    (hname : (Arguments.ofValue v).Supplies p name) : (args.get? name).isSome = true := by
  refine Check.mapping_isSome hargs ?_
  rcases Procedure.arguments_eq h with ⟨es, ha, rfl⟩ | ⟨values, ha, rfl⟩ <;> rw [ha] at hname
  · exact Arguments.bindFrom_keeps hname _ _
  · exact Arguments.bindFrom_supplies hname

/-- **A parameter that a call does not supply is bound to its default**, and where it has none it is
not bound by the call. -/
theorem Procedure.arguments_default (h : p.arguments v = .ok bound)
    (hargs : Check.mapping Check.text Check.any (.dict bound) = .ok args)
    (hname : ¬(Arguments.ofValue v).Supplies p name) :
    args.get? name = Param.default? p.params name := by
  refine Check.mapping_get? hargs ?_
  rcases Procedure.arguments_eq h with ⟨es, ha, rfl⟩ | ⟨values, ha, rfl⟩ <;> rw [ha] at hname
  · have hfree : Value.Binds es name none := .free fun e he hread => hname ⟨e, he, hread⟩
    exact Arguments.bindFrom_defaults hfree _
  · exact Arguments.bindFrom_binds (.free (by simp)) hname

end Arguments

end BlockSuite
