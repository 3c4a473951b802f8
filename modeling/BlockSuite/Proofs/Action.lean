import Mathlib.Tactic.Common
import BlockSuite.Machine

/-!
Laws of actions: how a sequence of actions ends, and what sequences inherit from their parts. An
action keeps a relation of states when every state it leaves is related to the one it started in,
and it meets a contract when besides it fails only in some ways.
-/

namespace BlockSuite

/-! ### Computations on values -/

section Except

variable {ε α β : Type} {x : Except ε α} {f : α → Except ε β}

lemma except_bind_ok {b : β} (h : (x >>= f) = .ok b) : ∃ a, x = .ok a ∧ f a = .ok b := by
  cases x with
  | error e => cases h
  | ok a => exact ⟨a, rfl, h⟩

lemma except_bind_error {e : ε} (h : (x >>= f) = .error e) :
    x = .error e ∨ ∃ a, x = .ok a ∧ f a = .error e := by
  cases x with
  | error e' =>
    cases h
    exact .inl rfl
  | ok a => exact .inr ⟨a, rfl, h⟩

/-- The items of a list are computed to results of some kind just if each of them is. -/
lemma mapM_ok_iff {P : β → Prop} {xs : List α} :
    (∃ ys, xs.mapM f = .ok ys ∧ ∀ y ∈ ys, P y) ↔ ∀ x ∈ xs, ∃ y, f x = .ok y ∧ P y := by
  induction xs with
  | nil => exact iff_of_true ⟨[], rfl, nofun⟩ nofun
  | cons x rest ih =>
    rw [List.forall_mem_cons, ← ih, List.mapM_cons]
    constructor
    · rintro ⟨_, h, hP⟩
      obtain ⟨y, hy, h⟩ := except_bind_ok h
      obtain ⟨ys, hys, h⟩ := except_bind_ok h
      cases h
      rw [List.forall_mem_cons] at hP
      exact ⟨⟨y, hy, hP.1⟩, ys, hys, hP.2⟩
    · rintro ⟨⟨y, hy, hPy⟩, ys, hys, hP⟩
      exact ⟨y :: ys, by rw [hy, hys]; rfl, List.forall_mem_cons.mpr ⟨hPy, hP⟩⟩

lemma exists_mapM_ok {xs : List α} :
    (∃ ys, xs.mapM f = .ok ys) ↔ ∀ x ∈ xs, ∃ y, f x = .ok y := by
  have h : (∃ ys, xs.mapM f = .ok ys ∧ ∀ y ∈ ys, True) ↔ ∀ x ∈ xs, ∃ y, f x = .ok y ∧ True :=
    mapM_ok_iff
  simpa using h

lemma mapM_eq_ok {g : α → β} {xs : List α} (h : ∀ x ∈ xs, f x = .ok (g x)) :
    xs.mapM f = .ok (xs.map g) := by
  induction xs with
  | nil => rfl
  | cons x rest ih =>
    rw [List.forall_mem_cons] at h
    rw [List.mapM_cons, h.1, ih h.2]
    rfl

end Except

namespace Action

variable {σ τ α β : Type}

/-! ### Endings -/

lemma bind_of_done {x : Action σ α} {s t : σ} {a : α} (h : x s = (.done a, t))
    (f : α → Action σ β) : (x >>= f) s = f a t := by
  rw [bind_run, h]

lemma bind_of_failed {x : Action σ α} {s t : σ} {e : Failure} (h : x s = (.failed e, t))
    (f : α → Action σ β) : (x >>= f) s = (.failed e, t) := by
  rw [bind_run, h]

lemma bind_of_exhausted {x : Action σ α} {s t : σ} (h : x s = (.exhausted, t))
    (f : α → Action σ β) : (x >>= f) s = (.exhausted, t) := by
  rw [bind_run, h]

/-- How the first part of a sequence ends without the second part. -/
inductive Broken : Outcome α → Outcome β → Prop
  | failed (e : Failure) : Broken (.failed e) (.failed e)
  | exhausted : Broken .exhausted .exhausted

lemma Broken.not_done {o : Outcome α} {b : β} (h : Broken o (.done b)) : False := by cases h

lemma Broken.of_failed {o : Outcome α} {e : Failure} (h : Broken o (.failed e : Outcome β)) :
    o = .failed e := by
  cases h; rfl

/-- A sequence ends with its second part, unless the first one does not come to its end. -/
lemma bind_cases {x : Action σ α} {f : α → Action σ β} {s t : σ} {o : Outcome β}
    (h : (x >>= f) s = (o, t)) :
    (∃ a s', x s = (.done a, s') ∧ f a s' = (o, t)) ∨ ∃ o', x s = (o', t) ∧ Broken o' o := by
  rcases hx : x s with ⟨a | e | _, s'⟩
  · exact .inl ⟨a, s', rfl, by rwa [bind_of_done hx] at h⟩
  · rw [bind_of_failed hx] at h
    obtain ⟨rfl, rfl⟩ := Prod.mk.inj h
    exact .inr ⟨_, rfl, .failed e⟩
  · rw [bind_of_exhausted hx] at h
    obtain ⟨rfl, rfl⟩ := Prod.mk.inj h
    exact .inr ⟨_, rfl, .exhausted⟩

lemma bind_done {x : Action σ α} {f : α → Action σ β} {s t : σ} {b : β}
    (h : (x >>= f) s = (.done b, t)) : ∃ a s', x s = (.done a, s') ∧ f a s' = (.done b, t) := by
  rcases bind_cases h with h | ⟨o, -, hb⟩
  · exact h
  · exact hb.not_done.elim

/-- How a sequence ends whose second part only gives a value. -/
inductive Valued : Outcome α → Outcome β → Prop
  | done (a : α) (b : β) : Valued (.done a) (.done b)
  | broken {o : Outcome α} {o' : Outcome β} (h : Broken o o') : Valued o o'

lemma Valued.of_failed {o : Outcome α} {e : Failure} (h : Valued o (.failed e : Outcome β)) :
    o = .failed e := by
  cases h with
  | broken hb => exact hb.of_failed

lemma Valued.ne_exhausted {o : Outcome α} {o' : Outcome β} (h : Valued o o')
    (ho : o' ≠ .exhausted) : o ≠ .exhausted := by
  rintro rfl
  cases h with
  | broken hb =>
    cases hb
    exact ho rfl

lemma bind_valued {x : Action σ α} {f : α → Action σ β} (hf : ∀ a s, ∃ b, f a s = (.done b, s))
    {s t : σ} {o : Outcome β} (h : (x >>= f) s = (o, t)) : ∃ o', x s = (o', t) ∧ Valued o' o := by
  rcases bind_cases h with ⟨a, s', hx, h⟩ | ⟨o', hx, hb⟩
  · obtain ⟨b, hb⟩ := hf a s'
    rw [hb] at h
    cases h
    exact ⟨_, hx, .done a b⟩
  · exact ⟨o', hx, .broken hb⟩

lemma attempt_of_done {x : Action σ α} {s t : σ} {a : α} (h : x s = (.done a, t)) :
    attempt x s = (.done (.ok a), t) := by
  rw [attempt, h]

lemma attempt_of_failed {x : Action σ α} {s t : σ} {e : Failure} (h : x s = (.failed e, t)) :
    attempt x s = (.done (.error e), t) := by
  rw [attempt, h]

lemma attempt_of_exhausted {x : Action σ α} {s t : σ} (h : x s = (.exhausted, t)) :
    attempt x s = (.exhausted, t) := by
  rw [attempt, h]

lemma attempt_ok {x : Action σ α} {s t : σ} {a : α} (h : attempt x s = (.done (.ok a), t)) :
    x s = (.done a, t) := by
  rcases hx : x s with ⟨b | e | _, u⟩
  · rw [attempt_of_done hx] at h
    cases h
    rfl
  · rw [attempt_of_failed hx] at h
    cases h
  · rw [attempt_of_exhausted hx] at h
    cases h

lemma attempt_error {x : Action σ α} {s t : σ} {e : Failure}
    (h : attempt x s = (.done (.error e), t)) : x s = (.failed e, t) := by
  rcases hx : x s with ⟨b | e' | _, u⟩
  · rw [attempt_of_done hx] at h
    cases h
  · rw [attempt_of_failed hx] at h
    cases h
    rfl
  · rw [attempt_of_exhausted hx] at h
    cases h

lemma lift_run (r : Except Failure α) (s : σ) : lift r s = match r with
    | .ok a => (.done a, s)
    | .error e => (.failed e, s) := by
  cases r <;> rfl

lemma compute_run (r : Except Fault α) (s : σ) : compute r s = match r with
    | .ok a => (.done a, s)
    | .error e => (.failed (.ofFault e), s) := by
  cases r <;> rfl

/-- A computation on values leaves the state as it is. -/
lemma compute_same {r : Except Fault α} {s t : σ} {o : Outcome α} (h : compute r s = (o, t)) :
    t = s := by
  rw [compute_run] at h
  cases r <;> cases h <;> rfl

/-- Whether an action comes to its end can be computed. -/
lemma exists_done {x : Action σ α} {s : σ} (h : (x s).1.ended.isOk = true) :
    ∃ a t, x s = (.done a, t) := by
  rcases hx : x s with ⟨a | e | _, t⟩
  · exact ⟨a, t, rfl⟩
  · rw [hx] at h
    cases h
  · rw [hx] at h
    cases h

lemma exists_done_eq {x : Action σ α} {s : σ} {g : α → β} {b : β}
    (h : (x s).1.ended.toOption.map g = some b) : ∃ a t, x s = (.done a, t) ∧ g a = b := by
  rcases hx : x s with ⟨a | e | _, t⟩
  · rw [hx] at h
    exact ⟨a, t, rfl, Option.some.inj h⟩
  · rw [hx] at h
    cases h
  · rw [hx] at h
    cases h

/-- Whether an action fails can be computed. -/
lemma exists_failed {x : Action σ α} {s : σ}
    (h : (match (x s).1 with | .failed _ => true | _ => false) = true) :
    ∃ e t, x s = (.failed e, t) := by
  rcases hx : x s with ⟨a | e | _, t⟩
  · rw [hx] at h
    cases h
  · exact ⟨e, t, rfl⟩
  · rw [hx] at h
    cases h

/-! ### What actions keep -/

/-- Whenever an action ends, the state it leaves is related to the one it started in. -/
def Keeps (R : σ → σ → Prop) (x : Action σ α) : Prop :=
  ∀ s o t, x s = (o, t) → o ≠ .exhausted → R s t

lemma Broken.ne_exhausted {o : Outcome α} {o' : Outcome β} (h : Broken o o')
    (ho : o' ≠ .exhausted) : o ≠ .exhausted := by
  cases h with
  | failed e => simp
  | exhausted => exact absurd rfl ho

/-- What may be asked of an action: how the state it leaves is related to the one it started in, and
which failures it may end with. -/
structure Contract (σ : Type) where
  keeps : σ → σ → Prop
  fails : Failure → Prop

/-- The contract that only asks for a relation of states. -/
def Contract.keeping (R : σ → σ → Prop) : Contract σ := ⟨R, fun _ => True⟩

/-- Whenever an action ends, it does so as its contract asks, and what it gives has a property. -/
def Meets (K : Contract σ) (x : Action σ α) (Q : α → Prop := fun _ => True) : Prop :=
  ∀ s, match x s with
    | (.done a, t) => K.keeps s t ∧ Q a
    | (.failed e, t) => K.keeps s t ∧ K.fails e
    | (.exhausted, _) => True

variable {K : Contract σ} {x : Action σ α} {f : α → Action σ β} {P : α → Prop} {Q : β → Prop}

lemma Meets.done (h : Meets K x P) {s t : σ} {a : α} (hx : x s = (.done a, t)) :
    K.keeps s t ∧ P a := by
  have hs := h s
  rwa [hx] at hs

lemma Meets.failed (h : Meets K x P) {s t : σ} {e : Failure} (hx : x s = (.failed e, t)) :
    K.keeps s t ∧ K.fails e := by
  have hs := h s
  rwa [hx] at hs

lemma Meets.keeps (h : Meets K x P) : Keeps K.keeps x := by
  intro s o t hx ho
  cases o with
  | done a => exact (h.done hx).1
  | failed e => exact (h.failed hx).1
  | exhausted => exact absurd rfl ho

lemma Keeps.meets {R : σ → σ → Prop} (h : Keeps R x) : Meets (.keeping R) x := by
  intro s
  rcases hx : x s with ⟨a | e | _, t⟩
  · exact ⟨h _ _ _ hx (by simp), trivial⟩
  · exact ⟨h _ _ _ hx (by simp), trivial⟩
  · trivial

lemma Meets.mono (h : Meets K x P) {P' : α → Prop}
    (hP : ∀ s a t, x s = (.done a, t) → P a → P' a) : Meets K x P' := by
  intro s
  rcases hx : x s with ⟨a | e | _, t⟩
  · exact ⟨(h.done hx).1, hP _ _ _ hx (h.done hx).2⟩
  · exact h.failed hx
  · trivial

lemma Meets.of_done (h : ∀ s, ∃ a t, x s = (.done a, t) ∧ K.keeps s t ∧ P a) : Meets K x P := by
  intro s
  obtain ⟨a, t, hx, hk, hP⟩ := h s
  rw [hx]
  exact ⟨hk, hP⟩

lemma Meets.modify {g : σ → σ} (h : ∀ s, K.keeps s (g s)) : Meets K (Action.modify g) :=
  .of_done fun s => ⟨_, _, rfl, h s, trivial⟩

lemma Meets.bind (ht : ∀ s t u, K.keeps s t → K.keeps t u → K.keeps s u) (hx : Meets K x P)
    (hf : ∀ a, P a → Meets K (f a) Q) : Meets K (x >>= f) Q := by
  intro s
  rcases hxs : x s with ⟨a | e | _, t⟩
  · obtain ⟨hk, hP⟩ := hx.done hxs
    rw [bind_of_done hxs]
    rcases hft : f a t with ⟨b | e | _, u⟩
    · obtain ⟨hk', hQ⟩ := (hf a hP).done hft
      exact ⟨ht _ _ _ hk hk', hQ⟩
    · obtain ⟨hk', he⟩ := (hf a hP).failed hft
      exact ⟨ht _ _ _ hk hk', he⟩
    · trivial
  · rw [bind_of_failed hxs]
    exact hx.failed hxs
  · rw [bind_of_exhausted hxs]
    trivial

/-- An attempt does not fail, whatever is attempted. -/
lemma Keeps.attempt (hx : Keeps K.keeps x) : Meets K (Action.attempt x) := by
  intro s
  rcases hxs : x s with ⟨a | e | _, t⟩
  · rw [attempt_of_done hxs]
    exact ⟨hx _ _ _ hxs (by simp), trivial⟩
  · rw [attempt_of_failed hxs]
    exact ⟨hx _ _ _ hxs (by simp), trivial⟩
  · rw [attempt_of_exhausted hxs]
    trivial

lemma Meets.each {g : β → Action σ PUnit} {items : List β} (hr : ∀ s, K.keeps s s)
    (ht : ∀ s t u, K.keeps s t → K.keeps t u → K.keeps s u) (h : ∀ b ∈ items, Meets K (g b)) :
    Meets K (Action.each g items) := by
  induction items with
  | nil => exact .of_done fun s => ⟨_, s, rfl, hr s, trivial⟩
  | cons b rest ih =>
    refine .bind ht (h b List.mem_cons_self) fun _ _ => ?_
    exact ih fun b hb => h b (List.mem_cons_of_mem _ hb)

/-- An action behind a look at the state. -/
lemma Meets.get {g : σ → Action σ α} (h : ∀ s, Meets K (g s) P) : Meets K (Action.get >>= g) P :=
  fun s => h s s

/-! ### Actions that end -/

/-- An action that comes to an end from every state, whether it is done or fails. -/
def Ends (x : Action σ α) : Prop := ∀ s, (x s).1 ≠ .exhausted

namespace Ends

lemma pure (a : α) : Ends (Pure.pure a : Action σ α) := fun _ => nofun

lemma bind (hx : Ends x) (hf : ∀ a, Ends (f a)) : Ends (x >>= f) := by
  intro s
  rcases hxs : x s with ⟨a | e | _, t⟩
  · rw [bind_of_done hxs]
    exact hf a t
  · rw [bind_of_failed hxs]
    nofun
  · exact absurd (by rw [hxs]) (hx s)

lemma modify (g : σ → σ) : Ends (Action.modify g) := fun _ => nofun

lemma fail (e : Failure) : Ends (Action.fail e : Action σ α) := fun _ => nofun

lemma lift (r : Except Failure α) : Ends (Action.lift r : Action σ α) := by
  cases r <;> exact fun _ => nofun

lemma compute (r : Except Fault α) : Ends (Action.compute r : Action σ α) := lift _

/-- An action behind a look at the state. -/
lemma get {g : σ → Action σ α} (h : ∀ s, Ends (g s)) : Ends (Action.get >>= g) := fun s => h s s

lemma zoom {view : τ → σ} {put : τ → σ → τ} (hx : Ends x) : Ends (Action.zoom view put x) :=
  fun t => hx (view t)

lemma attempt (hx : Ends x) : Ends (Action.attempt x) := by
  intro s
  rcases hxs : x s with ⟨a | e | _, t⟩
  · rw [attempt_of_done hxs]
    nofun
  · rw [attempt_of_failed hxs]
    nofun
  · exact absurd (by rw [hxs]) (hx s)

lemma each {g : β → Action σ PUnit} {items : List β} (h : ∀ b ∈ items, Ends (g b)) :
    Ends (Action.each g items) := by
  induction items with
  | nil => exact pure _
  | cons b rest ih =>
    exact (h b List.mem_cons_self).bind fun _ => ih fun b hb => h b (List.mem_cons_of_mem _ hb)

end Ends

/-- Two actions that do the same, and come to an end from every state. -/
structure EndAlike (x y : Action σ α) : Prop where
  ends : Ends x
  same : x = y

namespace EndAlike

variable {y : Action σ α}

lemma of_ends (hx : Ends x) : EndAlike x x := ⟨hx, rfl⟩

/-- Sequences end alike if their second parts do for whatever the first part gives. -/
lemma bind {f g : α → Action σ β} (hx : EndAlike x y)
    (hf : ∀ a, (∃ s t, x s = (.done a, t)) → EndAlike (f a) (g a)) :
    EndAlike (x >>= f) (y >>= g) := by
  obtain ⟨hends, rfl⟩ := hx
  constructor
  · intro s
    rcases hxs : x s with ⟨a | e | _, t⟩
    · rw [bind_of_done hxs]
      exact (hf a ⟨s, t, hxs⟩).ends t
    · rw [bind_of_failed hxs]
      nofun
    · exact absurd (by rw [hxs]) (hends s)
  · funext s
    rcases hxs : x s with ⟨a | e | _, t⟩
    · rw [bind_of_done hxs, bind_of_done hxs, (hf a ⟨s, t, hxs⟩).same]
    · rw [bind_of_failed hxs, bind_of_failed hxs]
    · rw [bind_of_exhausted hxs, bind_of_exhausted hxs]

lemma zoom {view : τ → σ} {put : τ → σ → τ} (hx : EndAlike x y) :
    EndAlike (Action.zoom view put x) (Action.zoom view put y) := by
  obtain ⟨hends, rfl⟩ := hx
  exact .of_ends hends.zoom

end EndAlike

end Action

/-! ### Hooks -/

namespace Hooks

open BlockSuite.Action (Contract Meets)

variable {α : Type} {hooks : List Hooks} {event : Hooks → Option α} {call : α → Run Unit}

/-- What is called for an event is what one of the hooks has for it. -/
lemma mem_calls {x : Run Unit} (h : x ∈ hooks.filterMap fun k => (event k).map call) :
    ∃ k ∈ hooks, ∃ f, event k = some f ∧ x = call f := by
  obtain ⟨k, hk, hx⟩ := List.mem_filterMap.mp h
  obtain ⟨f, hf, rfl⟩ := Option.map_eq_some_iff.mp hx
  exact ⟨k, hk, f, hf, rfl⟩

/-- Hooks that meet a contract one by one meet it together. -/
lemma runAll_meets {K : Contract Context} (hr : ∀ c, K.keeps c c)
    (ht : ∀ c c' c'', K.keeps c c' → K.keeps c' c'' → K.keeps c c'')
    (h : ∀ k ∈ hooks, ∀ f, event k = some f → Meets K (call f)) :
    Meets K (runAll hooks fun k => (event k).map call) := by
  refine .each hr ht fun x hx => ?_
  obtain ⟨k, hk, f, hf, rfl⟩ := mem_calls hx
  exact h k hk f hf

/-- Hooks that come to their ends one by one do so together. -/
lemma runAll_ends (h : ∀ k ∈ hooks, ∀ f, event k = some f → Action.Ends (call f)) :
    Action.Ends (runAll hooks fun k => (event k).map call) := by
  refine .each fun x hx => ?_
  obtain ⟨k, hk, f, hf, rfl⟩ := mem_calls hx
  exact h k hk f hf

end Hooks

end BlockSuite
