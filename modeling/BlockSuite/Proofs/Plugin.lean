import BlockSuite.Proofs.Environment

/-!
Plugins that meet problems: an entry point gives no plugin, the name of a plugin is taken, or the
type of a block is. Which problems there are is told by the names and types that are there before,
and by those of the plugins in front. A strict environment stops at the first problem, and has got
by then what comes before it; any other environment warns of each and takes all that is a plugin.
-/

namespace BlockSuite

/-- The plugin that comes of an entry point, if it is one. -/
def EntryPoint.plugin? (entry : EntryPoint) : Option Plugin :=
  match entry.loaded with
  | .plugin p => some p
  | .failed | .invalid | .other => none

namespace Plugin

/-! ### Problems -/

/-- What may be wrong with plugins: an entry point was refused by a check, could not be loaded or
gave something else, a plugin has the name of another one, or a block has a type that is taken. -/
inductive Problem where
  | invalid (entry : String)
  | failed (entry : String)
  | other (entry : String)
  | repeated (plugin : String)
  | shadowing (type location : String)
deriving DecidableEq

/-- What is said about a problem. -/
def Problem.message : Problem → String
  | .invalid entry => "Failed to validate entrypoint " ++ Quoted.ofText entry
  | .failed entry => "Failed to load entrypoint " ++ Quoted.ofText entry
  | .other entry =>
    "Loaded from entrypoint " ++ Quoted.ofText entry ++ " object is not a plugin"
  | .repeated plugin => "Plugin " ++ Quoted.ofText plugin ++ " is already loaded"
  | .shadowing type location => "Block " ++ Quoted.ofText type ++ " from " ++
      Quoted.ofText location ++ " is shadowing an existing"

/-- The failure of a strict environment that meets a problem. -/
def Problem.failure (problem : Problem) : Failure := .raised (.of .plugin problem.message)

/-- The names that are taken once another one is. -/
def taking (name : String) (taken : String → Bool) : String → Bool := fun x => x == name || taken x

/-- The problems of blocks that are registered one behind the other, where some types are taken. -/
def problemsOfBlocks (location : Option String) : (String → Bool) → List Block → List Problem
  | _, [] => []
  | taken, b :: rest =>
    (if taken b.type then [.shadowing b.type (location.getD b.origin)] else []) ++
      problemsOfBlocks location (taking b.type taken) rest

/-- The problems of a plugin, where some types and names are taken. -/
def problems (location : Option String) (types names : String → Bool) (p : Plugin) :
    List Problem :=
  (if names p.name then [.repeated p.name] else []) ++ problemsOfBlocks location types p.blocks

/-- The problems of entry points that are loaded one behind the other. -/
def problemsOfEntries : (String → Bool) → (String → Bool) → List EntryPoint → List Problem
  | _, _, [] => []
  | types, names, entry :: rest =>
    match entry.loaded with
    | .invalid => .invalid entry.name :: problemsOfEntries types names rest
    | .failed => .failed entry.name :: problemsOfEntries types names rest
    | .other => .other entry.name :: problemsOfEntries types names rest
    | .plugin p => p.problems (some entry.location) types names ++
        problemsOfEntries (p.blocks.foldl (fun taken b => taking b.type taken) types)
          (taking p.name names) rest

/-- The blocks in front of the first one whose type is taken. -/
def admitted : (String → Bool) → List Block → List Block
  | _, [] => []
  | taken, b :: rest =>
    if taken b.type then [] else b :: admitted (taking b.type taken) rest

/-- How many names are taken, by others or by names in front of them. -/
def repeats : (String → Bool) → List String → Nat
  | _, [] => 0
  | taken, name :: rest => (if taken name then 1 else 0) + repeats (taking name taken) rest

variable {location : Option String} {taken types names : String → Bool} {blocks : List Block}

lemma taking_eq_true {name x : String} :
    taking name taken x = true ↔ x = name ∨ taken x = true := by
  simp [taking]

/-- There is no problem with blocks just if all are admitted. -/
lemma problemsOfBlocks_eq_nil :
    problemsOfBlocks location taken blocks = [] ↔ admitted taken blocks = blocks := by
  induction blocks generalizing taken with
  | nil => simp [problemsOfBlocks, admitted]
  | cons b rest ih => cases h : taken b.type <;> simp [problemsOfBlocks, admitted, h, ih]

/-- The first problem with blocks is that of the block behind those that are admitted. -/
lemma problemsOfBlocks_eq_cons {first : Problem} {rest : List Problem}
    (h : problemsOfBlocks location taken blocks = first :: rest) :
    ∃ b after, blocks = admitted taken blocks ++ b :: after ∧
      first = .shadowing b.type (location.getD b.origin) ∧
      (taken b.type = true ∨ b.type ∈ (admitted taken blocks).map (·.type)) := by
  induction blocks generalizing taken with
  | nil => cases h
  | cons b blocks ih =>
    cases hb : taken b.type with
    | true =>
      rw [problemsOfBlocks, hb] at h
      exact ⟨b, blocks, by simp [admitted, hb], (List.cons.inj h).1.symm, .inl hb⟩
    | false =>
      rw [problemsOfBlocks, hb] at h
      obtain ⟨b', after, hblocks, hfirst, htaken⟩ := ih h
      have hcons : admitted taken (b :: blocks) = b :: admitted (taking b.type taken) blocks := by
        simp [admitted, hb]
      rw [hcons]
      refine ⟨b', after, congrArg (b :: ·) hblocks, hfirst, ?_⟩
      rcases htaken with htaken | htaken
      · rcases taking_eq_true.mp htaken with heq | htaken
        · exact .inr (List.mem_map.mpr ⟨b, List.mem_cons_self, heq.symm⟩)
        · exact .inl htaken
      · exact .inr (List.mem_cons_of_mem _ htaken)

/-- The blocks that are admitted have new types, all of them different. -/
lemma admitted_fresh (taken : String → Bool) (blocks : List Block) :
    ((admitted taken blocks).map (·.type)).Nodup ∧
      ∀ b ∈ admitted taken blocks, taken b.type = false := by
  induction blocks generalizing taken with
  | nil => simp [admitted]
  | cons b rest ih =>
    cases hb : taken b.type with
    | true => simp [admitted, hb]
    | false =>
      obtain ⟨hnodup, hnew⟩ := ih (taking b.type taken)
      have hother (b' : Block) (hb' : b' ∈ admitted (taking b.type taken) rest) :
          b'.type ≠ b.type ∧ taken b'.type = false := by
        simpa [taking] using hnew b' hb'
      rw [admitted, hb]
      refine ⟨List.nodup_cons.mpr ⟨fun hmem => ?_, hnodup⟩, fun b' hb' => ?_⟩
      · obtain ⟨b', hb', heq⟩ := List.mem_map.mp hmem
        exact (hother b' hb').1 heq
      · rcases List.mem_cons.mp hb' with rfl | hb'
        · exact hb
        · exact (hother b' hb').2

/-- There is a problem with blocks just if the type of one is taken or is that of a block in
front. -/
lemma problemsOfBlocks_ne_nil : problemsOfBlocks location taken blocks ≠ [] ↔
    ∃ before b after, blocks = before ++ b :: after ∧
      (taken b.type = true ∨ b.type ∈ before.map (·.type)) := by
  constructor
  · intro h
    obtain ⟨first, rest, hproblems⟩ := List.exists_cons_of_ne_nil h
    obtain ⟨b, after, hblocks, -, htaken⟩ := problemsOfBlocks_eq_cons hproblems
    exact ⟨_, b, after, hblocks, htaken⟩
  · rintro ⟨before, b, after, hblocks, htaken⟩ hnil
    obtain ⟨hnodup, hnew⟩ := admitted_fresh taken blocks
    rw [problemsOfBlocks_eq_nil.mp hnil, hblocks] at hnodup hnew
    rcases htaken with htaken | htaken
    · simp [hnew b (by simp)] at htaken
    · simp only [List.map_append, List.map_cons, List.nodup_append] at hnodup
      exact hnodup.2.2 _ htaken _ List.mem_cons_self rfl

/-- No block is admitted just if the type of the first one, should there be one, is taken. -/
lemma admitted_eq_nil : admitted taken blocks = [] ↔ ∀ b ∈ blocks.head?, taken b.type = true := by
  cases blocks with
  | nil => simp [admitted]
  | cons b rest => cases h : taken b.type <;> simp [admitted, h]

/-- There are as many problems with blocks as types that are taken. -/
lemma length_problemsOfBlocks (location : Option String) (taken : String → Bool)
    (blocks : List Block) :
    (problemsOfBlocks location taken blocks).length = repeats taken (blocks.map (·.type)) := by
  induction blocks generalizing taken with
  | nil => rfl
  | cons b rest ih =>
    rw [problemsOfBlocks, List.length_append, ih, List.map_cons, repeats]
    cases taken b.type <;> rfl

lemma repeats_append (taken : String → Bool) (xs ys : List String) :
    repeats taken (xs ++ ys) =
      repeats taken xs + repeats (xs.foldl (fun taken x => taking x taken) taken) ys := by
  induction xs generalizing taken with
  | nil => simp [repeats]
  | cons x xs ih =>
    rw [List.cons_append, repeats, ih, repeats, List.foldl_cons, Nat.add_assoc]

/-- **There is one problem for each entry point that gives no plugin, for each block whose type is
taken, and for each plugin whose name is.** -/
theorem length_problemsOfEntries (types names : String → Bool) (entries : List EntryPoint) :
    (problemsOfEntries types names entries).length =
      entries.countP (fun entry => entry.plugin?.isNone) +
        repeats types
          ((entries.filterMap EntryPoint.plugin?).flatMap fun p => p.blocks.map (·.type)) +
        repeats names ((entries.filterMap EntryPoint.plugin?).map (·.name)) := by
  induction entries generalizing types names with
  | nil => rfl
  | cons entry rest ih =>
    rw [problemsOfEntries]
    cases hloaded : entry.loaded with
    | plugin p =>
      have hp : entry.plugin? = some p := by rw [EntryPoint.plugin?, hloaded]
      have hfold : (p.blocks.map (·.type)).foldl (fun taken x => taking x taken) types =
          p.blocks.foldl (fun taken b => taking b.type taken) types := List.foldl_map
      have hname : (if names p.name then [Problem.repeated p.name] else []).length =
          if names p.name then 1 else 0 := by cases names p.name <;> rfl
      rw [List.filterMap_cons_some hp, List.flatMap_cons, List.map_cons, repeats_append, repeats,
        hfold, List.countP_cons_of_neg (by simp [hp])]
      simp only [problems, List.length_append, length_problemsOfBlocks, hname, ih]
      omega
    | invalid | failed | other =>
      have hp : entry.plugin? = none := by rw [EntryPoint.plugin?, hloaded]
      rw [List.filterMap_cons_none hp, List.countP_cons_of_pos (by simp [hp])]
      simp only [List.length_cons, ih]
      omega

end Plugin

namespace Environment

open Plugin (Problem problems problemsOfBlocks problemsOfEntries admitted taking)

/-! ### What is registered -/

/-- An environment with some blocks more. -/
def withBlocks (e : Environment) (blocks : List Block) : Environment :=
  { e with blocks := e.blocks.defineAll (blocks.map fun b => (b.type, b)) }

/-- An environment with a plugin more. -/
def withPlugin (e : Environment) (p : Plugin) : Environment :=
  { e.withBlocks p.blocks with plugins := e.plugins.set p.name p, hooks := e.hooks ++ [p.hooks] }

lemma withBlocks_nil (e : Environment) : e.withBlocks [] = e := rfl

lemma withBlocks_cons (e : Environment) (b : Block) (rest : List Block) :
    e.withBlocks (b :: rest) = (e.withBlocks [b]).withBlocks rest := rfl

lemma has_define (l : Layers Block) (name : String) (b : Block) :
    (l.define name b).has = taking name l.has := by
  funext x
  by_cases h : name = x
  · subst h
    simp [taking, Layers.has, Layers.lookup_define_self]
  · simp [taking, Layers.has, Layers.lookup_define_ne l b h, Ne.symm h]

lemma has_withBlocks (e : Environment) (blocks : List Block) : (e.withBlocks blocks).blocks.has =
    blocks.foldl (fun taken b => taking b.type taken) e.blocks.has := by
  induction blocks generalizing e with
  | nil => rfl
  | cons b rest ih =>
    rw [List.foldl_cons, ← has_define e.blocks b.type b]
    exact ih (e.withBlocks [b])

lemma has_withPlugin (e : Environment) (p : Plugin) :
    (e.withPlugin p).plugins.has = taking p.name e.plugins.has := by
  funext x
  by_cases h : p.name = x
  · subst h
    simp [taking, withPlugin, Dict.has_iff_get?_isSome, Dict.get?_set_self]
  · simp [taking, withPlugin, Dict.has_set_of_ne h, Ne.symm h]

/-! ### Changes that meet problems -/

/-- What comes of a change that meets problems: a strict environment stops with the first of them,
and some changes are made by then. Otherwise there is a warning of each, and all is done. -/
structure Reports (x : Install) (s : Setup) (problems : List Problem) (done left : Environment) :
    Prop where
  passes : s.environment.settings.strict = false ∨ problems = [] →
    x s = (.done ⟨⟩, ⟨done, s.warnings ++ problems.map Problem.message⟩)
  stops : s.environment.settings.strict = true → ∀ first rest, problems = first :: rest →
    x s = (.failed first.failure, ⟨left, s.warnings⟩)

namespace Reports

variable {x y : Install} {s : Setup} {ps qs : List Problem} {e e' left left' : Environment}

/-- A change that meets no problem. -/
lemma of_done (h : x s = (.done ⟨⟩, ⟨e, s.warnings⟩)) : Reports x s [] e left where
  passes _ := by rw [h, List.map_nil, List.append_nil]
  stops _ _ _ := nofun

lemma congr (h : x s = y s) (hy : Reports y s ps e left) : Reports x s ps e left where
  passes hps := h.trans (hy.passes hps)
  stops strict first rest hps := h.trans (hy.stops strict first rest hps)

/-- A change behind it meets no problem. -/
lemma change (hx : Reports x s ps e left) (f : Environment → Environment) :
    Reports (x >>= fun _ => Environment.change f) s ps (f e) left where
  passes h := by
    rw [Action.bind_of_done (hx.passes h)]
    rfl
  stops strict first rest h := Action.bind_of_failed (hx.stops strict first rest h) _

/-- One change behind another one. What is left of both is what is left of the first one that meets
a problem. -/
lemma bind (hx : Reports x s ps e left)
    (hy : Reports y ⟨e, s.warnings ++ ps.map Problem.message⟩ qs e' left')
    (settings : e.settings = s.environment.settings) :
    Reports (x >>= fun _ => y) s (ps ++ qs) e' (if ps = [] then left' else left) where
  passes h := by
    have hps : s.environment.settings.strict = false ∨ ps = [] :=
      h.imp id fun h => (List.append_eq_nil_iff.mp h).1
    have hqs : e.settings.strict = false ∨ qs = [] :=
      h.imp (settings ▸ id) fun h => (List.append_eq_nil_iff.mp h).2
    rw [Action.bind_of_done (hx.passes hps), hy.passes hqs]
    simp
  stops strict first rest h := by
    cases ps with
    | nil =>
      have hdone := hx.passes (.inr rfl)
      have hstop := hy.stops (settings ▸ strict) first rest h
      rw [Action.bind_of_done hdone, hstop]
      simp
    | cons p ps =>
      obtain ⟨rfl, -⟩ := List.cons.inj h
      rw [Action.bind_of_failed (hx.stops strict p ps rfl)]
      simp

end Reports

variable {s : Setup} {location : Option String}

lemma complain_reports (problem : Problem) (s : Setup) :
    Reports (complain problem.message) s [problem] s.environment s.environment where
  passes h := by
    have lenient : s.environment.settings.strict = false := h.resolve_right (by simp)
    rw [complain_run, if_neg (by simp [lenient])]
    rfl
  stops strict first rest h := by
    obtain ⟨rfl, -⟩ := List.cons.inj h
    rw [complain_run, if_pos strict]
    rfl

lemma addBlock_reports (b : Block) (location : Option String) (s : Setup) :
    Reports (addBlock b location) s (problemsOfBlocks location s.environment.blocks.has [b])
      (s.environment.withBlocks [b]) s.environment := by
  have hrun := addBlock_run b location s
  cases taken : s.environment.blocks.has b.type with
  | true =>
    have hcomplain := complain_reports (.shadowing b.type (location.getD b.origin)) s
    rw [taken, if_pos rfl] at hrun
    simp only [problemsOfBlocks, taken, if_true]
    exact .congr hrun (hcomplain.change fun e => e.withBlocks [b])
  | false =>
    rw [taken, if_neg (by simp)] at hrun
    simp only [problemsOfBlocks, taken]
    exact .of_done hrun

/-- Blocks that are registered one behind the other: a strict environment gets those in front of the
first one whose type is taken. -/
lemma addBlocks_reports (blocks : List Block) (location : Option String) (s : Setup) :
    Reports (Action.each (addBlock · location) blocks) s
      (problemsOfBlocks location s.environment.blocks.has blocks)
      (s.environment.withBlocks blocks)
      (s.environment.withBlocks (admitted s.environment.blocks.has blocks)) := by
  induction blocks generalizing s with
  | nil => exact .of_done rfl
  | cons b rest ih =>
    have hfirst := addBlock_reports b location s
    have hrest := ih ⟨s.environment.withBlocks [b], s.warnings ++
      (problemsOfBlocks location s.environment.blocks.has [b]).map Problem.message⟩
    have hboth := hfirst.bind hrest rfl
    have hhas : (s.environment.withBlocks [b]).blocks.has =
        taking b.type s.environment.blocks.has := has_withBlocks s.environment [b]
    simp only [hhas] at hboth
    change Reports (addBlock b location >>= fun _ => Action.each (addBlock · location) rest) s _
      ((s.environment.withBlocks [b]).withBlocks rest) _
    cases taken : s.environment.blocks.has b.type with
    | true => simpa [problemsOfBlocks, admitted, taken, withBlocks_nil] using hboth
    | false =>
      have hcons : admitted s.environment.blocks.has (b :: rest) =
          b :: admitted (taking b.type s.environment.blocks.has) rest := by simp [admitted, taken]
      rw [hcons, withBlocks_cons s.environment b (admitted _ rest)]
      simpa [problemsOfBlocks, taken] using hboth

/-- A plugin that is registered: a strict environment gets none of it where its name is taken, and
else its blocks up to the first one whose type is. -/
lemma addPlugin_reports (p : Plugin) (location : Option String) (s : Setup) :
    Reports (addPlugin p location) s
      (p.problems location s.environment.blocks.has s.environment.plugins.has)
      (s.environment.withPlugin p)
      (if s.environment.plugins.has p.name then s.environment
        else s.environment.withBlocks (admitted s.environment.blocks.has p.blocks)) := by
  have hrest (s : Setup) := (addBlocks_reports p.blocks location s).change fun e =>
    { e with plugins := e.plugins.set p.name p, hooks := e.hooks ++ [p.hooks] }
  rw [problems]
  cases taken : s.environment.plugins.has p.name with
  | true =>
    have hboth := (complain_reports (.repeated p.name) s).bind (hrest _) rfl
    refine .congr ?_ hboth
    rw [addPlugin, Action.bind_run, Action.get_run]
    simp only [taken, if_true]
    rfl
  | false =>
    refine .congr ?_ (hrest s)
    rw [addPlugin, Action.bind_run, Action.get_run]
    simp only [taken]
    rfl

/-! ### Entry points -/

/-- An environment with the plugins of some entry points more. -/
def withEntries (e : Environment) (entries : List EntryPoint) : Environment :=
  (entries.filterMap EntryPoint.plugin?).foldl withPlugin e

/-- The problems that entry points meet in an environment. -/
def problemsOf (e : Environment) (entries : List EntryPoint) : List Problem :=
  problemsOfEntries e.blocks.has e.plugins.has entries

lemma withEntries_append (e : Environment) (before after : List EntryPoint) :
    e.withEntries (before ++ after) = (e.withEntries before).withEntries after := by
  rw [withEntries, List.filterMap_append, List.foldl_append]
  rfl

lemma withEntries_settings (e : Environment) (entries : List EntryPoint) :
    (e.withEntries entries).settings = e.settings := by
  rw [withEntries]
  induction entries.filterMap EntryPoint.plugin? generalizing e with
  | nil => rfl
  | cons p rest ih => exact ih (e.withPlugin p)

/-- What gives no plugin adds nothing. -/
lemma withEntries_filter (e : Environment) (entries : List EntryPoint) :
    e.withEntries (entries.filter fun entry => entry.plugin?.isSome) = e.withEntries entries := by
  have hplugins : (entries.filter fun entry => entry.plugin?.isSome).filterMap EntryPoint.plugin? =
      entries.filterMap EntryPoint.plugin? := by
    rw [List.filterMap_filter]
    refine List.filterMap_congr fun entry _ => ?_
    cases entry.plugin? <;> rfl
  rw [withEntries, hplugins]
  rfl

lemma withEntries_singleton (e : Environment) (entry : EntryPoint) :
    e.withEntries [entry] = entry.plugin?.elim e e.withPlugin := by
  rw [withEntries]
  cases hplugin : entry.plugin? <;> simp [hplugin]

lemma problemsOf_cons (e : Environment) (entry : EntryPoint) (rest : List EntryPoint) :
    e.problemsOf (entry :: rest) =
      e.problemsOf [entry] ++ (e.withEntries [entry]).problemsOf rest := by
  unfold problemsOf
  rw [problemsOfEntries, problemsOfEntries, withEntries_singleton, EntryPoint.plugin?]
  cases entry.loaded with
  | plugin p =>
    have htypes : (e.withPlugin p).blocks.has =
        p.blocks.foldl (fun taken b => taking b.type taken) e.blocks.has :=
      has_withBlocks e p.blocks
    rw [Option.elim_some, htypes, has_withPlugin]
    simp [problemsOfEntries]
  | invalid | failed | other => rfl

/-- What a strict environment has got when it stops at an entry point: of its plugin there are no
more than blocks. -/
structure Stopped (e left : Environment) : Prop where
  plugins : left.plugins = e.plugins
  hooks : left.hooks = e.hooks

lemma load_reports (entry : EntryPoint) (s : Setup) : ∃ left, Stopped s.environment left ∧
    Reports (load entry) s (s.environment.problemsOf [entry])
      (s.environment.withEntries [entry]) left := by
  unfold problemsOf
  rw [load, problemsOfEntries, withEntries_singleton, EntryPoint.plugin?]
  cases entry.loaded with
  | plugin p =>
    refine ⟨_, ?_, by simpa [problemsOfEntries] using addPlugin_reports p (some entry.location) s⟩
    split <;> exact ⟨rfl, rfl⟩
  | invalid => exact ⟨_, ⟨rfl, rfl⟩, complain_reports (.invalid entry.name) s⟩
  | failed => exact ⟨_, ⟨rfl, rfl⟩, complain_reports (.failed entry.name) s⟩
  | other => exact ⟨_, ⟨rfl, rfl⟩, complain_reports (.other entry.name) s⟩

/-- Entry points that are loaded one behind the other: a strict environment stops at the first one
that has a problem, and has got the plugins in front of it. -/
lemma loadAll_reports (entries : List EntryPoint) (s : Setup) : ∃ left,
    Reports (Action.each load entries) s (s.environment.problemsOf entries)
      (s.environment.withEntries entries) left ∧
    (s.environment.problemsOf entries ≠ [] → ∃ before entry after,
      entries = before ++ entry :: after ∧ s.environment.problemsOf before = [] ∧
        Stopped (s.environment.withEntries before) left) := by
  induction entries generalizing s with
  | nil => exact ⟨s.environment, .of_done rfl, fun h => absurd rfl h⟩
  | cons entry rest ih =>
    obtain ⟨left, hstopped, hfirst⟩ := load_reports entry s
    obtain ⟨left', hrest, hleft⟩ := ih ⟨s.environment.withEntries [entry],
      s.warnings ++ (s.environment.problemsOf [entry]).map Problem.message⟩
    have hboth := hfirst.bind hrest (withEntries_settings _ _)
    rw [← problemsOf_cons, ← withEntries_append] at hboth
    refine ⟨_, hboth, fun h => ?_⟩
    by_cases hnone : s.environment.problemsOf [entry] = []
    · rw [problemsOf_cons, hnone, List.nil_append] at h
      obtain ⟨before, stop, after, rfl, hbefore, hstop⟩ := hleft h
      rw [if_pos hnone]
      refine ⟨entry :: before, stop, after, rfl, ?_, ?_⟩
      · rw [problemsOf_cons, hnone, hbefore]
        rfl
      · rwa [← withEntries_append] at hstop
    · rw [if_neg hnone]
      exact ⟨[], entry, rest, rfl, rfl, hstopped⟩

/-! ### Refused plugins -/

lemma foldl_taking (taken : String → Bool) (blocks : List Block) (x : String) :
    blocks.foldl (fun taken b => taking b.type taken) taken x = true ↔
      x ∈ blocks.map (·.type) ∨ taken x = true := by
  induction blocks generalizing taken with
  | nil => simp
  | cons b rest ih =>
    rw [List.foldl_cons, ih, Plugin.taking_eq_true, List.map_cons, List.mem_cons]
    tauto

lemma has_visible (l : Layers Block) (type : String) : l.visible.has type = l.has type := by
  rw [Dict.has_iff_get?_isSome, Layers.get?_visible, Layers.has]

/-- Blocks of new types are seen, so nothing has changed just if there are none. -/
lemma visible_withBlocks_iff (e : Environment) {blocks : List Block}
    (h : ∀ b ∈ blocks, e.blocks.has b.type = false) :
    (e.withBlocks blocks).blocks.visible = e.blocks.visible ↔ blocks = [] := by
  refine ⟨fun hsame => ?_, fun hnil => by rw [hnil]; rfl⟩
  cases blocks with
  | nil => rfl
  | cons b rest =>
    have hb : (e.withBlocks (b :: rest)).blocks.has b.type = true := by
      rw [has_withBlocks, foldl_taking]
      exact .inl List.mem_cons_self
    rw [← has_visible, hsame, has_visible, h b List.mem_cons_self] at hb
    cases hb

/-- A plugin meets a problem just if its name is taken, or the type of a block is or is that of a
block in front. -/
lemma problems_ne_nil {types names : String → Bool} {p : Plugin} :
    p.problems location types names ≠ [] ↔ names p.name = true ∨
      ∃ before b after, p.blocks = before ++ b :: after ∧
        (types b.type = true ∨ b.type ∈ before.map (·.type)) := by
  have hblocks : Plugin.problemsOfBlocks location types p.blocks ≠ [] ↔ _ :=
    Plugin.problemsOfBlocks_ne_nil
  rw [← hblocks, problems]
  cases names p.name <;> simp

/-- **A strict environment is as it was behind a plugin that it refuses just if the name of the
plugin or the type of its first block was taken.** It refuses a plugin whose name is taken, or one
of whose blocks has a type that is taken or is that of a block in front. It never gets the plugin or
its hooks then; but it gets the blocks in front of the first one whose type is taken, unless it is
the name that is. -/
theorem refused_plugin_leaves_no_trace_iff (s : Setup)
    (strict : s.environment.settings.strict = true) (p : Plugin) (location : Option String) :
    ((∃ f t, addPlugin p location s = (.failed f, t)) ↔
      s.environment.plugins.has p.name = true ∨
        ∃ before b after, p.blocks = before ++ b :: after ∧
          (s.environment.blocks.has b.type = true ∨ b.type ∈ before.map (·.type))) ∧
    ∀ f t, addPlugin p location s = (.failed f, t) →
      (∃ message, f = .raised (.of .plugin message)) ∧
      t.environment.plugins = s.environment.plugins ∧
      t.environment.hooks = s.environment.hooks ∧
      t.environment = (if s.environment.plugins.has p.name then s.environment
        else s.environment.withBlocks (admitted s.environment.blocks.has p.blocks)) ∧
      (t.environment.blocks.visible = s.environment.blocks.visible ↔
        s.environment.plugins.has p.name = true ∨
          ∃ b ∈ p.blocks.head?, s.environment.blocks.has b.type = true) := by
  have hreports := addPlugin_reports p location s
  have hrefused : (∃ f t, addPlugin p location s = (.failed f, t)) ↔
      p.problems location s.environment.blocks.has s.environment.plugins.has ≠ [] := by
    constructor
    · rintro ⟨f, t, hrun⟩ hnil
      rw [hreports.passes (.inr hnil)] at hrun
      cases hrun
    · intro h
      obtain ⟨first, rest, hproblems⟩ := List.exists_cons_of_ne_nil h
      exact ⟨_, _, hreports.stops strict first rest hproblems⟩
  refine ⟨hrefused.trans problems_ne_nil, fun f t hrun => ?_⟩
  have hne := hrefused.mp ⟨f, t, hrun⟩
  obtain ⟨first, rest, hproblems⟩ := List.exists_cons_of_ne_nil hne
  obtain ⟨hf, rfl⟩ := Prod.mk.inj (hrun.symm.trans (hreports.stops strict first rest hproblems))
  cases hf
  refine ⟨⟨_, rfl⟩, by split <;> rfl, by split <;> rfl, rfl, ?_⟩
  cases taken : s.environment.plugins.has p.name with
  | true => simp
  | false =>
    have hblocks : p.blocks ≠ [] := by
      rintro hnil
      rw [problems, taken, hnil] at hne
      exact hne rfl
    obtain ⟨b, after, hcons⟩ := List.exists_cons_of_ne_nil hblocks
    have hfresh := (Plugin.admitted_fresh s.environment.blocks.has p.blocks).2
    simp only [Bool.false_eq_true, if_false, false_or]
    rw [visible_withBlocks_iff _ hfresh, Plugin.admitted_eq_nil, hcons]
    simp

/-- A strict shop with a lamp. -/
def lampShop : Setup :=
  { environment :=
      { settings := { strict := true }, blocks := [[("lamp", stocked "lamp" "Shop")]] } }

/-- A plugin of a vase and a lamp. -/
def attic : Plugin :=
  { name := "attic", blocks := [stocked "vase" "Attic", stocked "lamp" "Attic"] }

/-- The shop refuses the attic for its lamp, and keeps its vase. -/
theorem refused_attic_leaves_vase : ∃ f t, addPlugin attic none lampShop = (.failed f, t) ∧
    t.environment.plugins = [] ∧ lampShop.environment.blocks.visible.keys = ["lamp"] ∧
    t.environment.blocks.visible.keys = ["lamp", "vase"] :=
  ⟨_, _, by with_unfolding_all rfl, by with_unfolding_all rfl, by with_unfolding_all rfl,
    by with_unfolding_all rfl⟩

/-- A cellar with a lamp in front is refused too, and leaves nothing. -/
theorem refused_plugin_leaves_no_trace_iff_cellar :
    lampShop.environment.settings.strict = true ∧
      (∃ f t, addPlugin { name := "cellar", blocks := [stocked "lamp" "Cellar"] } none lampShop =
          (.failed f, t) ∧
        t.environment.blocks.visible = lampShop.environment.blocks.visible) ∧
      ∃ f t, addPlugin attic none lampShop = (.failed f, t) ∧
        t.environment.blocks.visible ≠ lampShop.environment.blocks.visible := by
  have hlamp : lampShop.environment.blocks.has "lamp" = true := by with_unfolding_all rfl
  obtain ⟨hcellar, hleft⟩ := refused_plugin_leaves_no_trace_iff lampShop rfl
    { name := "cellar", blocks := [stocked "lamp" "Cellar"] } none
  obtain ⟨hattic, hkept⟩ := refused_plugin_leaves_no_trace_iff lampShop rfl attic none
  obtain ⟨f, t, hrun⟩ := hcellar.mpr (.inr ⟨[], stocked "lamp" "Cellar", [], rfl, .inl hlamp⟩)
  obtain ⟨f', t', hrun'⟩ := hattic.mpr
    (.inr ⟨[stocked "vase" "Attic"], stocked "lamp" "Attic", [], rfl, .inl hlamp⟩)
  refine ⟨rfl, ⟨f, t, hrun, (hleft f t hrun).2.2.2.2.mpr (.inr ⟨_, rfl, hlamp⟩)⟩, f', t', hrun',
    fun hsame => ?_⟩
  rcases (hkept f' t' hrun').2.2.2.2.mp hsame with htaken | ⟨b, hb, htaken⟩
  · exact absurd htaken (by with_unfolding_all decide)
  · obtain rfl : b = stocked "vase" "Attic" := (Option.some.inj hb).symm
    exact absurd htaken (by with_unfolding_all decide)

/-! ### Loaded plugins -/

/-- **Loading passes over what is no plugin.** There is one problem for each entry point that gives
no plugin, for each block whose type is taken, and for each plugin whose name is. A lenient
environment warns of each of them, in their order, and has the blocks, plugins and hooks in the end
that it has from loading nothing but the entry points that give plugins. A strict environment fails
just if there is a problem, with the first one, and has got the plugins by then that come before it.
-/
theorem loading_passes_over_bad_entries (s : Setup) (entries : List EntryPoint) :
    let e := s.environment
    let scanned := entries.filter (·.group == e.settings.pluginGroup)
    let plugins := scanned.filterMap EntryPoint.plugin?
    (e.problemsOf scanned).length =
        scanned.countP (fun entry => entry.plugin?.isNone) +
          Plugin.repeats e.blocks.has (plugins.flatMap fun p => p.blocks.map (·.type)) +
          Plugin.repeats e.plugins.has (plugins.map (·.name)) ∧
      (e.settings.strict = false → ∃ t t',
        loadPlugins entries s = (.done (), t) ∧
        loadPlugins (entries.filter fun entry => entry.plugin?.isSome) s = (.done (), t') ∧
        t.environment = t'.environment ∧
        t.warnings = s.warnings ++ (e.problemsOf scanned).map Problem.message) ∧
      (e.settings.strict = true →
        (e.problemsOf scanned = [] →
          loadPlugins entries s = (.done (), ⟨e.withEntries scanned, s.warnings⟩)) ∧
        ∀ first rest, e.problemsOf scanned = first :: rest → ∃ t before entry after,
          loadPlugins entries s = (.failed (.raised (.of .plugin first.message)), t) ∧
          scanned = before ++ entry :: after ∧ e.problemsOf before = [] ∧
          t.environment.plugins = (e.withEntries before).plugins ∧
          t.environment.hooks = (e.withEntries before).hooks) := by
  intro e scanned plugins
  have hscan (entries : List EntryPoint) : loadPlugins entries s =
      Action.each load (entries.filter (·.group == e.settings.pluginGroup)) s := rfl
  obtain ⟨left, hreports, hleft⟩ := loadAll_reports scanned s
  refine ⟨Plugin.length_problemsOfEntries _ _ _, fun lenient => ?_, fun strict => ⟨fun hnone => ?_,
    fun first rest hproblems => ?_⟩⟩
  · have hswap : (entries.filter fun entry => entry.plugin?.isSome).filter
        (·.group == e.settings.pluginGroup) = scanned.filter fun entry => entry.plugin?.isSome := by
      rw [List.filter_filter, List.filter_filter]
      refine List.filter_congr fun entry _ => Bool.and_comm _ _
    obtain ⟨left', hgood, -⟩ :=
      loadAll_reports (scanned.filter fun entry => entry.plugin?.isSome) s
    have hrun := (hscan entries).trans (hreports.passes (.inl lenient))
    have hrun' := ((hscan _).trans (by rw [hswap])).trans (hgood.passes (.inl lenient))
    exact ⟨_, _, hrun, hrun', (withEntries_filter _ _).symm, rfl⟩
  · rw [hscan, hreports.passes (.inr hnone), hnone]
    simp
    rfl
  · have hne : s.environment.problemsOf scanned ≠ [] :=
      fun hnil => nomatch hproblems.symm.trans hnil
    obtain ⟨before, entry, after, hentries, hbefore, hstopped⟩ := hleft hne
    have hrun := (hscan entries).trans (hreports.stops strict first rest hproblems)
    exact ⟨_, before, entry, after, hrun, hentries, hbefore, hstopped.plugins, hstopped.hooks⟩

/-- A market where the attic is offered twice, and a third stand is gone. -/
def market : List EntryPoint :=
  [⟨"gone", "market:gone", "blocks_plugins", .failed⟩,
    ⟨"attic", "market:attic", "blocks_plugins", .plugin attic⟩,
    ⟨"again", "market:attic", "blocks_plugins", .plugin attic⟩]

/-- A lenient environment gets the attic with both hooks, warned of the stand that is gone, of the
name and of both blocks. A strict one gets nothing. -/
theorem loading_passes_over_bad_entries_market :
    (∃ t, loadPlugins market { environment := {} } = (.done (), t) ∧
      t.warnings = [Problem.failed "gone", .repeated "attic", .shadowing "vase" "market:attic",
        .shadowing "lamp" "market:attic"].map Problem.message) ∧
    ∃ t, loadPlugins market { environment := { settings := { strict := true } } } =
        (.failed (Problem.failed "gone").failure, t) ∧ t.environment.plugins = [] := by
  obtain ⟨-, hlenient, -⟩ := loading_passes_over_bad_entries { environment := {} } market
  obtain ⟨-, -, hstrict⟩ :=
    loading_passes_over_bad_entries { environment := { settings := { strict := true } } } market
  obtain ⟨t, -, hrun, -, -, hwarnings⟩ := hlenient rfl
  obtain ⟨t', before, entry, after, hrun', hscanned, hbefore, hplugins, -⟩ :=
    (hstrict rfl).2 _ _ (by with_unfolding_all rfl)
  refine ⟨⟨t, hrun, hwarnings.trans (by with_unfolding_all rfl)⟩, t', hrun', ?_⟩
  cases before with
  | nil => exact hplugins
  | cons first rest =>
    obtain rfl : first = ⟨"gone", "market:gone", "blocks_plugins", .failed⟩ :=
      (List.cons.inj hscanned).1.symm
    cases hbefore

end Environment

end BlockSuite
