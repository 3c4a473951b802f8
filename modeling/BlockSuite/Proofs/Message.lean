import BlockSuite.Proofs.Action
import BlockSuite.Message

/-!
What stands in front of a template. Text without a percent sign is written as it is, and does not
change what the template behind it is written as.
-/

namespace BlockSuite

section Except

variable {ε α β : Type}

lemma isOk_eq_isSome (x : Except ε α) : x.isOk = x.toOption.isSome := by cases x <;> rfl

lemma ok_of_toOption {x : Except ε α} {a : α} (h : x.toOption = some a) : x = .ok a := by
  cases x with
  | error e => cases h
  | ok b => exact congrArg Except.ok (Option.some.inj h)

lemma toOption_bind {x y : Except ε α} {f g : α → Except ε β} (hx : x.toOption = y.toOption)
    (hf : ∀ a, (f a).toOption = (g a).toOption) : (x >>= f).toOption = (y >>= g).toOption := by
  cases x with
  | error e =>
    cases y with
    | error e' => rfl
    | ok b => cases hx
  | ok a =>
    cases y with
    | error e' => cases hx
    | ok b =>
      cases hx
      exact hf a

end Except

namespace Message

variable {whole : Value} {supply : Supply}

/-- The position of a directive is only told of where its letter is none. -/
lemma write_toOption (l : Layout) (letter : Char) (i j : Nat) (v : Value) :
    (write l letter i v).toOption = (write l letter j v).toOption := by
  unfold write
  split <;> rfl

/-- Literal parts are written as they are. -/
lemma writeParts_literals (cs : List Char) (rest : List Part) :
    writeParts whole supply (cs.map .literal ++ rest) =
      (writeParts whole supply rest).map (String.ofList cs ++ ·) := by
  induction cs with
  | nil =>
    change writeParts whole supply rest = _
    cases writeParts whole supply rest <;> simp [Except.map]
  | cons c cs ih =>
    rw [List.map_cons, List.cons_append, writeParts, ih]
    cases writeParts whole supply rest with
    | error f => rfl
    | ok s =>
      refine congrArg Except.ok (String.toList_injective ?_)
      simp

/-- A directive without options takes the next argument. -/
lemma writeParts_next (letter : Char) (index : Nat) (v : Value) (vs : List Value)
    (rest : List Part) :
    writeParts whole (.items (v :: vs)) (.directive {} (some (letter, index)) :: rest) = (do
      let s ← write ⟨{}, false, 0, none⟩ letter index v
      return s ++ (← writeParts whole (.items vs) rest)) := rfl

/-- What a template is written as does not depend on where it starts. -/
lemma writeParts_toOption (cs : List Char) (pending : Option (Stage × Directive)) (i j : Nat)
    (supply : Supply) :
    (writeParts whole supply (parts pending i cs)).toOption =
      (writeParts whole supply (parts pending j cs)).toOption := by
  induction cs generalizing pending i j supply with
  | nil => rfl
  | cons c rest ih =>
    have hliteral (c : Char) :
        (writeParts whole supply (.literal c :: parts none (i + 1) rest)).toOption =
          (writeParts whole supply (.literal c :: parts none (j + 1) rest)).toOption :=
      toOption_bind (ih _ _ _ _) fun _ => rfl
    rcases pending with _ | ⟨stage, d⟩
    · simp only [parts]
      split
      · exact ih _ _ _ _
      · exact hliteral c
    simp only [parts]
    cases continueWith stage d c with
    | some next => exact ih _ _ _ _
    | none =>
      dsimp only
      split
      · exact hliteral '%'
      -- Only the letter of the directive and what follows it know of the position.
      · refine toOption_bind rfl fun _ => toOption_bind rfl fun _ => toOption_bind rfl fun _ => ?_
        refine toOption_bind rfl fun _ => ?_
        exact toOption_bind (write_toOption _ _ _ _ _) fun _ =>
          toOption_bind (ih _ _ _ _) fun _ => rfl

/-- Characters without a percent sign are literal parts. -/
lemma parts_append {head : List Char} (h : '%' ∉ head) (cs : List Char) (i : Nat) :
    parts none i (head ++ cs) = head.map .literal ++ parts none (i + head.length) cs := by
  induction head generalizing i with
  | nil => rfl
  | cons c rest ih =>
    rw [List.mem_cons, not_or] at h
    have hc : (c == '%') = false := by simpa using Ne.symm h.1
    simp only [List.cons_append, parts, hc, Bool.false_eq_true, if_false, List.map_cons]
    rw [ih h.2, List.length_cons, Nat.add_right_comm, Nat.add_assoc]

/-- **Text without a percent sign is written as it is, and does not change what the template behind
it is written as.** -/
theorem render_append {head : String} (h : '%' ∉ head.toList) (template : String)
    (arguments : List Value) : (render (head ++ template) arguments).toOption =
      (render template arguments).toOption.map (head ++ ·) := by
  unfold render
  split
  · rfl
  · rw [String.toList_append, parts_append h, writeParts_literals, String.ofList_toList]
    dsimp only
    rw [writeParts_toOption template.toList none 0 (0 + head.toList.length)]
    cases writeParts _ _ _ <;> rfl

/-- It does not decide whether the template behind it can be written. -/
lemma render_append_isOk {head : String} (h : '%' ∉ head.toList) (template : String)
    (arguments : List Value) :
    (render (head ++ template) arguments).isOk = (render template arguments).isOk := by
  rw [isOk_eq_isSome, isOk_eq_isSome, render_append h, Option.isSome_map]

/-- A text and a value behind it can be written if the value can be shown. -/
lemma render_shown (name : String) (v : Value) :
    (render "Set variable %s %r" [.text name, v]).isOk = v.quoted.isOk := by
  have hparts : parts none 0 "Set variable %s %r".toList =
      "Set variable ".toList.map .literal ++
        [.directive {} (some ('s', 14)), .literal ' ', .directive {} (some ('r', 17))] := rfl
  have hquoted : write ⟨{}, false, 0, none⟩ 'r' 17 v =
      (do return Layout.text ⟨{}, false, 0, none⟩ (← v.quoted)) := rfl
  change (writeParts (.tuple [.text name, v]) (.items [.text name, v])
    (parts none 0 "Set variable %s %r".toList)).isOk = _
  rw [hparts, writeParts_literals, writeParts_next, writeParts, writeParts_next, hquoted]
  cases v.quoted <;> rfl

end Message

end BlockSuite
