import BlockSuite.Proofs.Content
import BlockSuite.Proofs.Machine.Reference

/-!
Steps that compare two values. The values come from the inputs of the step, and what the comparison
of its operator says of them is the output. Equality is that of compact JSON: it is right where it
is found, and misses values of the same content whose members come in different orders.
-/

namespace BlockSuite

namespace Machine

variable {m : Machine} {step : Step} {nested : Bool} {layers : Nat} {op : String} {a b : Value}
  {c c₀ c₁ : Context} {t : Bool}

/-- A step that compares two values by an operator, and how it comes to them. -/
inductive Compares (m : Machine) (layers : Nat) (nested : Bool) (step : Step) (op : String)
    (a b : Value) (c : Context) : Prop
  | mk {c₀ c₁ : Context} {rs : Dict StepResult} {vs : Dict Value}
    (known : m.blocks.lookup step.type = some Library.compareValues)
    (begins : m.Begins nested step c c₀)
    (supplied : Supplied (m.runWith layers) Library.compareValues step
      (inputOrder Library.compareValues step) c₀ rs vs c₁)
    (operator : vs.get? "OP" = some (.text op)) (left : vs.get? "A" = some a)
    (right : vs.get? "B" = some b)

/-- A step comes to a truth value: it passes with it as its output, and the observers of the machine
are shown this result. -/
def Finds (m : Machine) (layers : Nat) (nested : Bool) (step : Step) (c : Context) (t : Bool) :
    Prop :=
  ∃ r c', r.status = .passed ∧ r.output = .bool t ∧
    m.runWith (layers + 1) nested step c = (m.observe nested step r >>= fun _ => pure r) c'

/-- An operator decides a question about two values: every step that compares them by it comes to
the truth value of the question. -/
def Decides (op : String) (a b : Value) (P : Prop) : Prop :=
  ∀ (m : Machine) (layers : Nat) (nested : Bool) (step : Step) (c : Context),
    Compares m layers nested step op a b c → ∃ t, (t = true ↔ P) ∧ m.Finds layers nested step c t

/-- The block answers what the comparison of the operator says. -/
lemma compareValues_run {params : Dict Value} {f : Value → Value → Except Fault Bool}
    (operator : params.get? "OP" = some (.text op)) (left : params.get? "A" = some a)
    (right : params.get? "B" = some b) (hop : op.isEmpty = false)
    (hf : Dict.get? Library.comparisons op = some f) (ht : f a b = .ok t) (c : Context) :
    Library.compareValues.executor params c = (.done (.value (.bool t)), c) := by
  have hname : Library.textOf (Library.orElse (Library.input params "OP") (.text "eq")) c =
      (.done op, c) := by
    have htruthy : (Value.text op).isTruthy = true := by rw [Value.isTruthy, hop]; rfl
    rw [Library.input, operator, Option.getD_some, Library.orElse, if_pos htruthy]
    rfl
  change (Library.textOf _ >>= fun name => _) c = _
  rw [Action.bind_of_done hname]
  simp only [hf]
  have hcompute : (Action.compute (f (Library.input params "A") (Library.input params "B")) :
      Run Bool) c = (.done t, c) := by
    rw [Library.input, left, Library.input, right, Option.getD_some, Option.getD_some, ht]
    rfl
  rw [Action.bind_of_done hcompute]
  rfl

/-- A step comes to what the comparison of its operator says. -/
lemma Compares.finds {f : Value → Value → Except Fault Bool}
    (h : Compares m layers nested step op a b c) (hop : op.isEmpty = false)
    (hf : Dict.get? Library.comparisons op = some f) (ht : f a b = .ok t) :
    m.Finds layers nested step c t := by
  cases h with
  | @mk c₀ c₁ rs vs known begins supplied operator left right =>
    obtain ⟨r, passed, output, hrun⟩ :=
      supplied.comes known begins (compareValues_run operator left right hop hf ht _) rfl
    exact ⟨r, _, passed, output, hrun⟩

lemma anyEncodedAs_portable {xs : List Value} {s : String} (hxs : ∀ x ∈ xs, x.Portable)
    (hb : b.Portable) (hs : b.toJson = .ok s) :
    ∃ t, Library.contains.anyEncodedAs s xs = .ok t ∧ (t = true ↔ ∃ x ∈ xs, x.InOrder b) := by
  induction xs with
  | nil => exact ⟨false, rfl, by simp⟩
  | cons x rest ih =>
    have hx := hxs x List.mem_cons_self
    obtain ⟨s', hs', -⟩ := hx.read_toJson
    obtain ⟨t, hrest, ht⟩ := ih fun y hy => hxs y (List.mem_cons_of_mem _ hy)
    have hsame : s' = s ↔ x.InOrder b := by
      rw [← Value.toJson_eq_iff_inOrder hx hb, hs', hs, Except.ok.injEq]
    rw [Library.contains.anyEncodedAs, hs', hrest]
    by_cases heq : s' = s
    · exact ⟨true, by simp [bind, Except.bind, pure, Except.pure, heq], by simp [← hsame, heq]⟩
    · exact ⟨t, by simp [bind, Except.bind, heq], by simp [← hsame, heq, ht]⟩

lemma sameJson_portable (ha : a.Portable) (hb : b.Portable) :
    ∃ t, Library.sameJson a b = .ok t ∧ (t = true ↔ a.InOrder b) := by
  obtain ⟨s, hs, -⟩ := ha.read_toJson
  obtain ⟨s', hs', -⟩ := hb.read_toJson
  refine ⟨s == s', by rw [Library.sameJson, hs, hs']; rfl, ?_⟩
  rw [beq_iff_eq, ← Value.toJson_eq_iff_inOrder ha hb, hs, hs', Except.ok.injEq]

/-- **Equality is by content in order.** Of values that JSON carries, equality tells whether they
have the same content in the same order, inequality whether they have not, and a list contains a
value if one of its items has its content in this order. Values that are found equal therefore have
the same content; that values of the same content are found equal takes that the members of mappings
come in the same order, as they do where all of them come in that of their keys. -/
theorem equality_tells_order (ha : a.Portable) (hb : b.Portable) :
    Decides "eq" a b (a.InOrder b) ∧
    Decides "neq" a b (¬a.InOrder b) ∧
    (∀ xs, a = .list xs → Decides "contains" a b (∃ x ∈ xs, x.InOrder b)) ∧
    (a.InOrder b → a.SameContent b) ∧
    (a.Sorted → b.Sorted → a.SameContent b → a.InOrder b) := by
  obtain ⟨t, hsame, ht⟩ := sameJson_portable ha hb
  refine ⟨fun _ _ _ _ _ h => ⟨t, ht, h.finds rfl rfl hsame⟩,
    fun _ _ _ _ _ h => ⟨!t, by simp [← ht], ?_⟩, ?_, fun h => h.sameContent,
    fun hsa hsb h => h.inOrder hsa hsb⟩
  · have hnot : (do return !(← Library.sameJson a b) : Except Fault Bool) = .ok !t := by
      rw [hsame]
      rfl
    exact h.finds rfl rfl hnot
  · rintro xs rfl _ _ _ _ _ h
    obtain ⟨s, hs, -⟩ := hb.read_toJson
    obtain ⟨t, hany, ht⟩ := anyEncodedAs_portable ha.items hb hs
    have hcontains : Library.contains (.list xs) b = .ok t := by
      change (b.toJson >>= fun encoded => Library.contains.anyEncodedAs encoded xs) = _
      rw [hs]
      exact hany
    exact ⟨t, ht, h.finds rfl rfl hcontains⟩

/-- A price list. -/
def prices : Value := .record [("tea", .int 3), ("milk", .list [.int 1, .int 2])]

/-- The same price list, put together the other way round. -/
def pricesSwapped : Value := .record [("milk", .list [.int 1, .int 2]), ("tea", .int 3)]

/-- A machine that compares. -/
def scales : Machine := { blocks := [[("logic_compare", Library.compareValues)]] }

/-- A step that compares the price lists by an operator. -/
def weighing (op : String) : Step :=
  ⟨"weigh", "logic_compare", [("A", .literal prices), ("OP", .literal (.text op)),
    ("B", .literal pricesSwapped)], []⟩

lemma prices_portable : prices.Portable ∧ pricesSwapped.Portable := by
  have hmilk : (Value.list [.int 1, .int 2]).Portable := by
    refine .list fun x hx => ?_
    rcases List.mem_pair.mp hx with rfl | rfl <;> exact .int (by decide)
  constructor
  · refine .dict (by decide) fun e he => ?_
    rcases List.mem_pair.mp he with rfl | rfl
    · exact .int (by decide)
    · exact hmilk
  · refine .dict (by decide) fun e he => ?_
    rcases List.mem_pair.mp he with rfl | rfl
    · exact hmilk
    · exact .int (by decide)

lemma weighing_compares (op : String) (hop : Template.isPlain (.text op) = true) :
    Compares scales 0 true (weighing op) op prices pricesSwapped silent := by
  have hprices : Template.fillValue silent.scopes prices = .ok prices :=
    Template.fillValue_plain _ _ (by decide +kernel)
  have hswapped : Template.fillValue silent.scopes pricesSwapped = .ok pricesSwapped :=
    Template.fillValue_plain _ _ (by decide +kernel)
  exact .mk rfl ⟨rfl, rfl⟩ (.cons (.plain rfl hprices) (.cons (.plain rfl
    (Template.fillValue_plain _ _ hop)) (.cons (.plain rfl hswapped) (.nil silent)))) rfl rfl rfl

theorem equality_tells_order_prices :
    prices.Portable ∧ pricesSwapped.Portable ∧
      Compares scales 0 true (weighing "neq") "neq" prices pricesSwapped silent ∧
      ∃ t, (t = true ↔ ¬prices.InOrder pricesSwapped) ∧
        scales.Finds 0 true (weighing "neq") silent t := by
  obtain ⟨hprices, hswapped⟩ := prices_portable
  have hcompares := weighing_compares "neq" (by decide +kernel)
  obtain ⟨-, hneq, -⟩ := equality_tells_order hprices hswapped
  exact ⟨hprices, hswapped, hcompares, hneq _ _ _ _ _ hcompares⟩

lemma prices_sameContent : prices.SameContent pricesSwapped := by
  refine .record (List.Perm.swap _ _ _) fun x hx y hy heq => ?_
  rcases List.mem_pair.mp hx with rfl | rfl <;> rcases List.mem_pair.mp hy with rfl | rfl
  · exact absurd heq (by decide)
  · exact .int 3
  · refine .list rfl fun i hi _ => ?_
    match i, hi with
    | 0, _ => exact .int 1
    | 1, _ => exact .int 2
  · exact absurd heq (by decide)

lemma prices_not_inOrder : ¬prices.InOrder pricesSwapped := by
  intro h
  have heq := Value.record_injective (h.eq prices_portable.1 prices_portable.2)
  exact absurd (congrArg Dict.keys heq) (by decide)

/-- A nested step comes to one truth value. -/
lemma Finds.unique {t' : Bool} (h : m.Finds layers true step c t)
    (h' : m.Finds layers true step c t') : t = t' := by
  obtain ⟨r, c₁, -, hr, hrun⟩ := h
  obtain ⟨r', c₂, -, hr', hrun'⟩ := h'
  obtain rfl : r = r' := Outcome.done.inj (congrArg Prod.fst (hrun.symm.trans hrun'))
  exact Value.bool.inj (hr.symm.trans hr')

/-- The two price lists have the same content, and are found to differ. -/
theorem swapped_prices_differ :
    prices.Portable ∧ pricesSwapped.Portable ∧ prices.SameContent pricesSwapped ∧
      scales.Finds 0 true (weighing "eq") silent false ∧
      ¬Decides "eq" prices pricesSwapped (prices.SameContent pricesSwapped) := by
  obtain ⟨hprices, hswapped⟩ := prices_portable
  have hcompares := weighing_compares "eq" (by decide +kernel)
  obtain ⟨t, hsame, ht⟩ := sameJson_portable hprices hswapped
  obtain rfl : t = false := by simpa [prices_not_inOrder] using ht
  have hfinds : scales.Finds 0 true (weighing "eq") silent false := hcompares.finds rfl rfl hsame
  refine ⟨hprices, hswapped, prices_sameContent, hfinds, fun hdecides => ?_⟩
  obtain ⟨t, ht, hfinds'⟩ := hdecides _ _ _ _ _ hcompares
  rw [← hfinds.unique hfinds'] at ht
  exact absurd (ht.mpr prices_sameContent) (by decide)

end Machine

end BlockSuite
