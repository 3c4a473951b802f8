import BlockSuite.Proofs.Action
import BlockSuite.Proofs.Registry

/-!
Strict environments. A block that is visible in one of them stays: a block of a type that is taken
is refused, so what is registered in an environment hides nothing there, and in the environments
that were opened on it only what they did not have.
-/

namespace BlockSuite

open BlockSuite.Action (Contract Ends Meets)

/-! ### Layers that hide nothing -/

/-- What a registry shows behind some changes of its own layer that hide nothing: what is below is
the same, and everything that was found still is. -/
structure Layers.Extends {α : Type} (l l' : Layers α) : Prop where
  own : l' = l ∨ ∃ d, l' = d :: l.tail
  found : ∀ name a, l.lookup name = some a → l'.lookup name = some a

namespace Layers.Extends

variable {α : Type} {l l' l'' : Layers α}

lemma refl (l : Layers α) : l.Extends l := ⟨.inl rfl, fun _ _ => id⟩

lemma trans (h : l.Extends l') (h' : l'.Extends l'') : l.Extends l'' where
  own := by
    rcases h'.own with rfl | ⟨d, rfl⟩
    · exact h.own
    · rcases h.own with rfl | ⟨e, rfl⟩
      · exact .inr ⟨d, rfl⟩
      · exact .inr ⟨d, rfl⟩
  found name a ha := h'.found name a (h.found name a ha)

/-- An entry under a name that is free hides nothing. -/
lemma define {name : String} (h : l.has name = false) (a : α) : l.Extends (l.define name a) where
  own := by cases l <;> exact .inr ⟨_, rfl⟩
  found other b hb := by
    have hne : name ≠ other := by
      rintro rfl
      rw [has, hb] at h
      cases h
    rw [lookup_define_ne l a hne, hb]

end Layers.Extends

namespace Forest

variable {α : Type} {f : Forest α} {i j : Nat} {n : Node α} {l : Layers α} {name : String} {a : α}

lemma put_of_none (h : f[i]? = none) : f.put i l = f := by
  have hi : f.length ≤ i := List.getElem?_eq_none_iff.mp h
  match l with
  | [] => exact List.set_eq_of_length_le hi
  | [_] | _ :: _ :: _ => simp only [put, update, List.modify_eq_set_getElem?, h]; rfl

/-- What stands below a registry does not change with it. -/
lemma layers_set_below (n : Node α) (hj : j < i) : layers (f.set i n) j = f.layers j := by
  refine (layers_congr (P := (· < i)) (fun k hk => ?_) ?_ hj).symm
  · exact (List.getElem?_set_ne (Nat.ne_of_gt hk)).symm
  · exact fun k q _ hk _ hq => Nat.lt_trans hq hk

lemma layers_put_self (hi : f[i]? = some n) (d : Dict α) :
    (f.put i (d :: (f.layers i).tail)).layers i = d :: (f.layers i).tail := by
  obtain ⟨p, e⟩ := n
  have hin : i < f.length := (List.getElem?_eq_some_iff.mp hi).1
  rw [put_own hi, layers_of_some (List.getElem?_set_self hin), layers_of_some hi]
  cases p with
  | none => rfl
  | some q => by_cases hq : q < i <;> simp [Option.filter, hq, layers_set_below]

/-- Where one registry hides nothing that it showed, no registry does. Those that were opened on it
may have an entry of their own where it had none. -/
lemma lookup_put (hl : (f.layers i).Extends l) (h : (f.layers j).lookup name = some a) :
    ((f.put i l).layers j).lookup name = some a := by
  cases hi : f[i]? with
  | none => rwa [put_of_none hi]
  | some n =>
    obtain ⟨d, rfl⟩ : ∃ d, l = d :: (f.layers i).tail := by
      rcases hl.own with rfl | hl
      · exact ⟨n.entries, by rw [layers_of_some hi]; rfl⟩
      · exact hl
    induction j using Nat.strongRecOn with
    | _ j ih =>
      by_cases hji : j = i
      · subst hji
        rw [layers_put_self hi]
        exact hl.found name a h
      · cases hj : f[j]? with
        | none =>
          rw [layers_of_none hj] at h
          cases h
        | some m =>
          have hput : (f.put i (d :: (f.layers i).tail))[j]? = some m := by
            rw [put_own hi, List.getElem?_set_ne (Ne.symm hji), hj]
          rw [layers_of_some hput, Layers.lookup_cons]
          rw [layers_of_some hj, Layers.lookup_cons] at h
          cases hm : m.entries.get? name with
          | some b => rwa [hm] at h
          | none =>
            rw [hm] at h
            cases hr : m.parent.filter (· < j) with
            | none =>
              rw [hr] at h
              cases h
            | some q =>
              rw [hr] at h
              exact ih q (of_decide_eq_true (Option.filter_eq_some_iff.mp hr).2) h

/-- A new registry leaves the others as they are. -/
lemma layers_openOn (hj : j < f.length) : (f.openOn i).2.layers j = f.layers j := by
  refine (layers_congr (P := (· < f.length)) (fun k hk => ?_) ?_ hj).symm
  · exact (List.getElem?_append_left hk).symm
  · exact fun k q _ hk _ hq => Nat.lt_trans hq hk

end Forest

/-! ### Strict changes -/

/-- What a change of a strict environment does: it fails only with an error of plugins, and however
it ends, it hides no block. -/
def Setup.hidingNothing : Contract Setup where
  keeps s t := s.environment.settings.strict = true →
    t.environment.settings = s.environment.settings ∧
      s.environment.blocks.Extends t.environment.blocks
  fails e := ∃ message, e = .raised (.of .plugin message)

namespace Environment

open Setup (hidingNothing)

lemma hidingNothing_refl (s : Setup) : hidingNothing.keeps s s := fun _ => ⟨rfl, .refl _⟩

lemma hidingNothing_trans (s t u : Setup) (h : hidingNothing.keeps s t)
    (h' : hidingNothing.keeps t u) : hidingNothing.keeps s u := by
  intro strict
  obtain ⟨hsettings, hblocks⟩ := h strict
  obtain ⟨hsettings', hblocks'⟩ := h' (hsettings ▸ strict)
  exact ⟨hsettings'.trans hsettings, hblocks.trans hblocks'⟩

/-- In a strict environment a problem is a failure, and changes nothing. -/
lemma complain_run (message : String) (s : Setup) : complain message s =
    if s.environment.settings.strict then (.failed (.raised (.of .plugin message)), s)
    else (.done ⟨⟩, { s with warnings := s.warnings ++ [message] }) := by
  rw [complain, Action.bind_run, Action.get_run]
  dsimp only
  split <;> rfl

lemma complain_meets (message : String) : Meets hidingNothing (complain message) := by
  intro s
  rw [complain_run]
  by_cases strict : s.environment.settings.strict = true
  · rw [if_pos strict]
    exact ⟨hidingNothing_refl s, message, rfl⟩
  · rw [if_neg strict]
    exact ⟨fun h => absurd h strict, trivial⟩

lemma addBlock_run (b : Block) (location : Option String) (s : Setup) : addBlock b location s =
    if s.environment.blocks.has b.type then
      (complain ("Block " ++ Quoted.ofText b.type ++ " from " ++
        Quoted.ofText (location.getD b.origin) ++ " is shadowing an existing") >>=
          fun _ => putBlock b) s
    else putBlock b s := by
  rw [addBlock, Action.bind_run, Action.get_run]
  dsimp only
  split <;> rfl

/-- A strict environment refuses a block of a type that is taken, and registers any other one. -/
lemma addBlock_strict {s : Setup} (strict : s.environment.settings.strict = true) (b : Block)
    (location : Option String) : addBlock b location s =
      if s.environment.blocks.has b.type then
        (.failed (.raised (.of .plugin ("Block " ++ Quoted.ofText b.type ++ " from " ++
          Quoted.ofText (location.getD b.origin) ++ " is shadowing an existing"))), s)
      else (.done ⟨⟩, { s with environment :=
        { s.environment with blocks := s.environment.blocks.define b.type b } }) := by
  rw [addBlock_run, Action.bind_run, complain_run, if_pos strict]
  rfl

lemma addBlock_meets (b : Block) (location : Option String) :
    Meets hidingNothing (addBlock b location) := by
  intro s
  by_cases strict : s.environment.settings.strict = true
  · rw [addBlock_strict strict]
    cases has : s.environment.blocks.has b.type with
    | true => exact ⟨hidingNothing_refl s, _, rfl⟩
    | false => exact ⟨fun _ => ⟨rfl, .define has b⟩, trivial⟩
  · rw [addBlock_run, Action.bind_run, complain_run, if_neg strict]
    cases s.environment.blocks.has b.type <;> exact ⟨fun h => absurd h strict, trivial⟩

lemma change_meets {f : Environment → Environment} (hs : ∀ e, (f e).settings = e.settings)
    (hb : ∀ e, (f e).blocks = e.blocks) : Meets hidingNothing (change f) :=
  .modify fun s _ => ⟨hs s.environment, by rw [hb]; exact .refl _⟩

lemma addPlugin_meets (p : Plugin) (location : Option String) :
    Meets hidingNothing (addPlugin p location) := by
  refine .get fun s => ?_
  have hrest : Meets hidingNothing (do
      Action.each (addBlock · location) p.blocks
      change fun e =>
        { e with plugins := e.plugins.set p.name p, hooks := e.hooks ++ [p.hooks] }) := by
    have hblocks : Meets hidingNothing (Action.each (addBlock · location) p.blocks) :=
      .each hidingNothing_refl hidingNothing_trans fun b _ => addBlock_meets b location
    exact hblocks.bind hidingNothing_trans fun _ _ => change_meets (fun _ => rfl) fun _ => rfl
  by_cases taken : s.environment.plugins.has p.name = true
  · simp only [taken, if_true]
    exact (complain_meets _).bind hidingNothing_trans fun _ _ => hrest
  · simp only [taken]
    exact hrest

lemma load_meets (entry : EntryPoint) : Meets hidingNothing (load entry) := by
  rw [load]
  cases entry.loaded with
  | plugin p => exact addPlugin_meets p _
  | failed | invalid | other => exact complain_meets _

lemma loadPlugins_meets (entries : List EntryPoint) : Meets hidingNothing (loadPlugins entries) :=
  .get fun _ => .each hidingNothing_refl hidingNothing_trans fun entry _ => load_meets entry

/-! ### Changes that end -/

lemma complain_ends (message : String) : Ends (complain message) := by
  intro s
  rw [complain_run]
  split <;> nofun

lemma change_ends (f : Environment → Environment) : Ends (change f) := fun _ => nofun

lemma addBlock_ends (b : Block) (location : Option String) : Ends (addBlock b location) := by
  intro s
  rw [addBlock_run]
  split
  · exact (complain_ends _).bind (fun _ => change_ends _) s
  · nofun

lemma addPlugin_ends (p : Plugin) (location : Option String) : Ends (addPlugin p location) := by
  have hget : Ends (Action.get : Action Setup Setup) := fun _ => nofun
  have hblocks : Ends (Action.each (addBlock · location) p.blocks) :=
    .each fun b _ => addBlock_ends b location
  refine hget.bind fun s => ?_
  by_cases taken : s.environment.plugins.has p.name = true
  · simp only [taken, if_true]
    exact (complain_ends _).bind fun _ => hblocks.bind fun _ => change_ends _
  · simp only [taken]
    exact hblocks.bind fun _ => change_ends _

lemma load_ends (entry : EntryPoint) : Ends (load entry) := by
  rw [load]
  cases entry.loaded with
  | plugin p => exact addPlugin_ends p _
  | failed | invalid | other => exact complain_ends _

lemma loadPlugins_ends (entries : List EntryPoint) : Ends (loadPlugins entries) := by
  have hget : Ends (Action.get : Action Setup Setup) := fun _ => nofun
  exact hget.bind fun _ => .each fun entry _ => load_ends entry

end Environment

/-! ### Environments that grow out of each other -/

namespace Workspace

variable {w : Workspace} {i j : Nat} {x : Install} {type : String} {b : Block}

/-- The environments after some operations, those that were refused among them. -/
def after (w : Workspace) (ops : List Operation) : Workspace :=
  ops.foldl (fun w op => (w.operate op).2) w

/-- An operation opens a scope, or is a change that comes to its end and hides nothing. -/
lemma operate_cases (w : Workspace) (op : Operation) :
    (∃ i, w.operate op = (.done (), w.openScope i)) ∨
      ∃ i x, w.operate op = w.run i x ∧ Meets Setup.hidingNothing x ∧ Ends x := by
  cases op with
  | scope i => exact .inl ⟨i, rfl⟩
  | register i b =>
    exact .inr ⟨i, Environment.addBlock b, rfl, Environment.addBlock_meets b none,
      Environment.addBlock_ends b none⟩
  | install i p =>
    exact .inr ⟨i, Environment.addPlugin p, rfl, Environment.addPlugin_meets p none,
      Environment.addPlugin_ends p none⟩
  | load i entries =>
    exact .inr ⟨i, Environment.loadPlugins entries, rfl, Environment.loadPlugins_meets entries,
      Environment.loadPlugins_ends entries⟩

lemma lookup_openScope (h : (w.blocks.layers j).lookup type = some b) :
    ((w.openScope i).blocks.layers j).lookup type = some b := by
  have hj : j < w.blocks.length := by
    by_contra hj
    rw [Forest.layers_of_none (List.getElem?_eq_none (Nat.not_lt.mp hj))] at h
    cases h
  rw [openScope, Forest.layers_openOn hj, h]

lemma lookup_run (strict : w.settings.strict = true) (hx : Meets Setup.hidingNothing x)
    (hends : Ends x) (h : (w.blocks.layers j).lookup type = some b) :
    ((w.run i x).2.blocks.layers j).lookup type = some b := by
  refine Forest.lookup_put ?_ h
  exact (hx.keeps _ _ _ rfl (hends ⟨w.view i, w.warnings⟩) strict).2

lemma settings_operate (w : Workspace) (op : Operation) :
    (w.operate op).2.settings = w.settings := by
  cases op <;> rfl

lemma lookup_operate (strict : w.settings.strict = true) (op : Operation)
    (h : (w.blocks.layers j).lookup type = some b) :
    ((w.operate op).2.blocks.layers j).lookup type = some b := by
  rcases operate_cases w op with ⟨i, hop⟩ | ⟨i, x, hop, hx, hends⟩
  · rw [hop]
    exact lookup_openScope h
  · rw [hop]
    exact lookup_run strict hx hends h

lemma lookup_after (strict : w.settings.strict = true) (ops : List Operation)
    (h : (w.blocks.layers j).lookup type = some b) :
    ((w.after ops).blocks.layers j).lookup type = some b := by
  induction ops generalizing w with
  | nil => exact h
  | cons op rest ih =>
    exact ih ((settings_operate w op).symm ▸ strict) (lookup_operate strict op h)

lemma settings_after (w : Workspace) (ops : List Operation) :
    (w.after ops).settings = w.settings := by
  induction ops generalizing w with
  | nil => rfl
  | cons op rest ih => exact (ih _).trans (settings_operate w op)

/-- **An operation on environments is carried out or fails with an error of plugins.** -/
theorem operate_ends (w : Workspace) (op : Operation) :
    (w.operate op).1 = .done () ∨
      ∃ message, (w.operate op).1 = .failed (.raised (.of .plugin message)) := by
  rcases operate_cases w op with ⟨i, hop⟩ | ⟨i, x, hop, hx, hends⟩
  · exact .inl (by rw [hop])
  · rw [hop]
    rcases hrun : x ⟨w.view i, w.warnings⟩ with ⟨_ | e | _, s⟩
    · exact .inl (by rw [run, hrun])
    · obtain ⟨message, rfl⟩ := (hx.failed hrun).2
      exact .inr ⟨message, by rw [run, hrun]⟩
    · exact absurd (by rw [hrun]) (hends ⟨w.view i, w.warnings⟩)

/-- **Strict environments never replace a visible block.** Whatever environments were opened as
scopes of each other, and whatever is registered in them or loaded into them later, whether it is
taken or refused: the block that one of them once found for a type is the one that it finds. -/
theorem strict_keeps_blocks (w : Workspace) (strict : w.settings.strict = true)
    (before later : List Operation) (i : Nat) (type : String) (b : Block)
    (found : ((w.after before).view i).blocks.lookup type = some b) :
    ((w.after (before ++ later)).view i).blocks.lookup type = some b := by
  have hafter : w.after (before ++ later) = (w.after before).after later := List.foldl_append
  rw [hafter]
  exact lookup_after ((settings_after w before).symm ▸ strict) later found

/-- A strict environment of no blocks. -/
def bare : Workspace := .ofSetup { environment := { settings := { strict := true } } }

/-- A lamp is registered in the environment, and a rug in a scope of it. -/
def furnished : List Operation :=
  [.register 0 (stocked "lamp" "Shop"), .scope 0, .register 1 (stocked "rug" "Cellar")]

/-- The environment gets a rug of its own. In the scope another lamp is refused, and so is a plugin
of a vase and a lamp, once the vase is there. -/
def refurnished : List Operation :=
  [.register 0 (stocked "rug" "Shop"), .register 1 (stocked "lamp" "Cellar"),
    .install 1 { name := "attic", blocks := [stocked "vase" "Attic", stocked "lamp" "Attic"] }]

/-- The scope keeps its rug although there is another one below it now, and both keep the lamp. -/
theorem strict_keeps_blocks_refurnished :
    bare.settings.strict = true ∧
      ((bare.after furnished).view 1).blocks.lookup "rug" = some (stocked "rug" "Cellar") ∧
      ((bare.after (furnished ++ refurnished)).view 1).blocks.lookup "rug" =
        some (stocked "rug" "Cellar") ∧
      ((bare.after (furnished ++ refurnished)).view 0).blocks.lookup "rug" =
        some (stocked "rug" "Shop") ∧
      ((bare.after (furnished ++ refurnished)).view 1).blocks.lookup "vase" =
        some (stocked "vase" "Attic") ∧
      ((bare.after (furnished ++ refurnished)).view 1).blocks.lookup "lamp" =
        some (stocked "lamp" "Shop") := by
  have rug : ((bare.after furnished).view 1).blocks.lookup "rug" =
      some (stocked "rug" "Cellar") := by with_unfolding_all rfl
  have lamp : ((bare.after furnished).view 1).blocks.lookup "lamp" =
      some (stocked "lamp" "Shop") := by with_unfolding_all rfl
  refine ⟨rfl, rug, ?_, by with_unfolding_all rfl, by with_unfolding_all rfl, ?_⟩
  · exact strict_keeps_blocks bare rfl furnished refurnished 1 "rug" _ rug
  · exact strict_keeps_blocks bare rfl furnished refurnished 1 "lamp" _ lamp

end Workspace

end BlockSuite
