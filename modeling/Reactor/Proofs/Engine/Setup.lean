/-
  The modules in a list that are set up at the same time.

  * `SetupSetting` is what modules are found in and configured by, and what their
    setups may do;
  * `SetupBatch.Accounted` says what becomes of the names in a list, and
    `SetupBatch.Independent` that this does not depend on the rest;
  * `SetupTask.Goes` is what a task may do next, and `SetupBatch.Step` what may
    happen to a list;
  * `SetupBatch.Sound` is kept by each step: the names are split as planned, each
    task has done as it should, and what it has called and sent is recorded;
  * `Sound.accounted` and `Sound.independent` follow.
-/
import Reactor.Engine.Activation
import Reactor.Proofs.Engine.Isolation

namespace Reactor

open Traffic (flatMap_set_perm)

variable {α ε : Type}

/-- What modules are found in and configured by, and what their setups may do. -/
structure SetupSetting (α ε : Type) where
  registry : Registry α
  resolver : Resolver
  may : α → ByteArray → SetupEffect ε → Prop

/-! ## What is said of setups -/

/-- Whether a setup ends with a result. -/
def SetupEnding.isReturned : SetupEnding ε → Bool
  | .returned _ => true
  | .panicked => false

/-- The bytes of a call are those that the resolver gives for the module, or none
    if it fails. -/
def SetupCall.Configured (resolver : Resolver) (c : SetupCall ε) : Prop :=
  resolver c.name = .ok c.config ∨ (∃ e, resolver c.name = .error e) ∧ c.config = .empty

/-- An outcome tells how a setup has ended that was called. -/
structure SetupOutcome.Tells (message : ε → String) (o : SetupOutcome) (c : SetupCall ε) :
    Prop where
  module : o.module = c.name
  absent : o.error? = none ↔ c.effect.ending = .returned (.ok ())
  text : ∀ e, c.effect.ending = .returned (.error e) → o.error? = some (message e)

/-- What the outcomes of a list of modules say, and of what. -/
structure SetupBatch.Accounts (r : Registry α) (message : ε → String) (names : List String)
    (b : SetupBatch α ε) (os : List SetupOutcome) : Prop where
  /-- one setup was called for each listed name that is registered, and there is an
      outcome for each that has not panicked, in the order of the list -/
  calls : ∃ cs : List (SetupCall ε), cs.Perm b.calls ∧ cs.map (·.name) = names.filter r.contains ∧
    List.Forall₂ (SetupOutcome.Tells message) os (cs.filter (·.effect.ending.isReturned))
  modules : (∀ c ∈ b.calls, c.effect.ending.isReturned) →
    os.map (·.module) = names.filter r.contains

/-- What is said of the modules in a list, at any time and at the end. -/
structure SetupBatch.Accounted (S : SetupSetting α ε) (message : ε → String) (names : List String)
    (b : SetupBatch α ε) : Prop where
  configured : ∀ c ∈ b.calls, c.Configured S.resolver
  skipped : b.names = [] → b.skipped = names.filter fun n => !S.registry.contains n
  started : b.names = [] → b.tasks.length + b.skipped.length = names.length
  told : ∀ os, b.join? message = some os → b.Accounts S.registry message names os

/-- A module is found and configured alike in two settings, and its setup ends
    alike. -/
structure SetupSetting.Alike (S S' : SetupSetting α ε) (n : String) : Prop where
  found : S.registry.lookup n = S'.registry.lookup n
  resolved : S.resolver n = S'.resolver n
  ends : ∀ m effect effect', S.registry.lookup n = .ok m →
    S.may m (Setup.configFor S.resolver n) effect →
    S'.may m (Setup.configFor S.resolver n) effect' → effect.ending = effect'.ending

/-- What two lists of modules have in common does not depend on the rest. -/
structure SetupBatch.Independent (S S' : SetupSetting α ε) (message : ε → String)
    (b b' : SetupBatch α ε) : Prop where
  config : ∀ c ∈ b.calls, ∀ c' ∈ b'.calls, c.name = c'.name →
    S.resolver c.name = S'.resolver c.name → c.config = c'.config
  outcome : ∀ o ∈ b.outcomes message, ∀ o' ∈ b'.outcomes message, o.module = o'.module →
    S.Alike S' o.module → o = o'

/-! ## Tasks -/

namespace SetupTask

variable {S : SetupSetting α ε} {t : SetupTask α ε}

/-- The calls that a task has made. -/
def calls (t : SetupTask α ε) : List (SetupCall ε) :=
  match t.phase with
  | .called call _ | .ended call => [call]
  | _ => []

/-- The events that the setup of a task has sent. -/
def sent (t : SetupTask α ε) : List Event :=
  match t.phase with
  | .called call n => call.effect.events.take n
  | .ended call => call.effect.events
  | _ => []

/-- What a step of a task leads to: a phase, calls, and events. -/
inductive Goes (S : SetupSetting α ε) (t : SetupTask α ε) :
    SetupPhase ε → List (SetupCall ε) → List Event → Prop
  | resolve : t.phase = .spawned → Goes S t (.configured (Setup.configFor S.resolver t.name)) [] []
  | call {config : ByteArray} {effect : SetupEffect ε} : t.phase = .configured config →
      S.may t.module config effect →
      Goes S t (.called ⟨t.name, config, effect⟩ 0) [⟨t.name, config, effect⟩] []
  | send {call : SetupCall ε} {n : Nat} {e : Event} : t.phase = .called call n →
      call.effect.events[n]? = some e → Goes S t (.called call (n + 1)) [] [e]
  | finish {call : SetupCall ε} : t.phase = .called call call.effect.events.length →
      Goes S t (.ended call) [] []

/-- A call is of the module of a task, with its configuration, and does what the
    module may do. -/
structure Made (S : SetupSetting α ε) (t : SetupTask α ε) (c : SetupCall ε) : Prop where
  name : c.name = t.name
  config : c.config = Setup.configFor S.resolver t.name
  effect : S.may t.module c.config c.effect

/-- A task has done as it should so far. -/
def Sound (S : SetupSetting α ε) (t : SetupTask α ε) : Prop :=
  match t.phase with
  | .spawned => True
  | .configured config => config = Setup.configFor S.resolver t.name
  | .called call n => t.Made S call ∧ n ≤ call.effect.events.length
  | .ended call => t.Made S call

variable {phase : SetupPhase ε} {cs : List (SetupCall ε)} {es : List Event}

theorem Goes.calls (h : t.Goes S phase cs es) :
    ({ t with phase } : SetupTask α ε).calls = t.calls ++ cs := by
  cases h with
  | resolve hp | call hp _ | send hp _ | finish hp => simp [SetupTask.calls, hp]

theorem Goes.sent (h : t.Goes S phase cs es) :
    ({ t with phase } : SetupTask α ε).sent = t.sent ++ es := by
  cases h with
  | resolve hp | call hp _ | finish hp => simp [SetupTask.sent, hp]
  | send hp he => simp [SetupTask.sent, hp, List.take_add_one, he]

theorem Goes.sound (h : t.Goes S phase cs es) (ht : t.Sound S) :
    ({ t with phase } : SetupTask α ε).Sound S := by
  unfold Sound at ht ⊢
  cases h with
  | resolve hp => rfl
  | call hp hmay =>
    rw [hp] at ht
    exact ⟨⟨rfl, ht, hmay⟩, Nat.zero_le _⟩
  | send hp he =>
    rw [hp] at ht
    obtain ⟨⟨hname, hconfig, hmay⟩, -⟩ := ht
    exact ⟨⟨hname, hconfig, hmay⟩, (List.getElem?_eq_some_iff.1 he).1⟩
  | finish hp =>
    rw [hp] at ht
    obtain ⟨⟨hname, hconfig, hmay⟩, -⟩ := ht
    exact ⟨hname, hconfig, hmay⟩

theorem Sound.made (ht : t.Sound S) {c : SetupCall ε} (hc : c ∈ t.calls) : t.Made S c := by
  unfold SetupTask.calls at hc
  unfold Sound at ht
  split at hc
  · rename_i call n hp
    rw [hp] at ht
    rw [List.mem_singleton.1 hc]
    exact ht.1
  · rename_i call hp
    rw [hp] at ht
    rw [List.mem_singleton.1 hc]
    exact ht
  · cases hc

theorem exists_ended (h : t.isEnded = true) : ∃ call, t.phase = .ended call := by
  unfold isEnded at h
  split at h
  · rename_i call hp; exact ⟨call, hp⟩
  · cases h

end SetupTask

/-! ## The tasks of a list -/

namespace SetupBatch

variable {S : SetupSetting α ε} {b b' : SetupBatch α ε} {names : List String}

/-- What a move leads to. -/
inductive Step (S : SetupSetting α ε) (b : SetupBatch α ε) : SetupBatch α ε → Prop
  | start {n : String} {names : List String} {m : α} : b.names = n :: names →
      S.registry.lookup n = .ok m →
      Step S b { b with names, tasks := b.tasks ++ [⟨n, m, .spawned⟩] }
  | skip {n : String} {names : List String} {e : RegistryError} : b.names = n :: names →
      S.registry.lookup n = .error e → Step S b { b with names, skipped := b.skipped ++ [n] }
  | go {i : Nat} {t : SetupTask α ε} {phase : SetupPhase ε} {cs : List (SetupCall ε)}
      {es : List Event} : b.tasks[i]? = some t → t.Goes S phase cs es →
      Step S b ({ b with calls := b.calls ++ cs, sent := b.sent ++ es }.enter i t phase)

theorem step_of_move? {q q' : Queue} {m : SetupMove ε}
    (h : b.move? S.registry S.resolver q m = some (b', q'))
    (ha : Activation.AllowsCall S.may b m) : b.Step S b' := by
  cases m with
  | lookUp =>
    obtain ⟨c, hc, hb⟩ := Option.map_eq_some_iff.1 h
    cases hb
    unfold lookUp? at hc
    split at hc
    · cases hc
    · rename_i n names hnames
      split at hc
      · rename_i m hm; cases hc; exact .start hnames hm
      · rename_i e he; cases hc; exact .skip hnames he
  | resolve i =>
    obtain ⟨t, ht, h⟩ := Option.bind_eq_some_iff.1 h
    split at h <;> cases h
    rename_i hp
    simpa using Step.go (S := S) ht (.resolve hp)
  | call i effect =>
    obtain ⟨t, ht, h⟩ := Option.bind_eq_some_iff.1 h
    split at h <;> cases h
    rename_i config hp
    simpa using Step.go (S := S) ht (.call hp (ha t config ht hp))
  | send i =>
    obtain ⟨t, ht, h⟩ := Option.bind_eq_some_iff.1 h
    split at h
    · rename_i call n hp
      obtain ⟨e, he, h⟩ := Option.bind_eq_some_iff.1 h
      obtain ⟨q, -, h⟩ := Option.bind_eq_some_iff.1 h
      cases h
      simpa using Step.go (S := S) ht (.send hp he)
    · cases h
  | finish i =>
    obtain ⟨t, ht, h⟩ := Option.bind_eq_some_iff.1 h
    split at h
    · rename_i call n hp
      split at h
      · rename_i hn
        cases h
        subst hn
        simpa using Step.go (S := S) ht (.finish hp)
      · cases h
    · cases h

/-- The names that were looked up are split as planned, the tasks have done as they
    should, and what they called and sent is recorded. -/
structure Sound (S : SetupSetting α ε) (names : List String) (b : SetupBatch α ε) : Prop where
  planned : ∃ done, names = done ++ b.names ∧
    b.tasks.map (fun t => (t.name, t.module)) = (Setup.plan S.registry done).1 ∧
    b.skipped = (Setup.plan S.registry done).2
  tasks : ∀ t ∈ b.tasks, t.Sound S
  calls : b.calls.Perm (b.tasks.flatMap (·.calls))
  sent : b.sent.Perm (b.tasks.flatMap (·.sent))

theorem Sound.start (S : SetupSetting α ε) (names : List String) : (start names).Sound S names :=
  ⟨⟨[], rfl, rfl, rfl⟩, nofun, .refl _, .refl _⟩

theorem plan_concat (r : Registry α) (done : List String) (n : String) :
    Setup.plan r (done ++ [n]) =
      match r.lookup n with
      | .ok m => ((Setup.plan r done).1 ++ [(n, m)], (Setup.plan r done).2)
      | .error _ => ((Setup.plan r done).1, (Setup.plan r done).2 ++ [n]) := by
  unfold Setup.plan Registry.lookup Registry.contains
  cases h : Fields.get? n r.modules <;> simp [List.filterMap_append, h]

/-- What the tasks have of something, if a task has more of it. -/
theorem perm_set {β : Type} {f : SetupTask α ε → List β} {i : Nat} {t u : SetupTask α ε}
    (ht : b.tasks[i]? = some t) {new : List β} (hu : f u = f t ++ new) {l : List β}
    (hl : l.Perm (b.tasks.flatMap f)) : (l ++ new).Perm ((b.tasks.set i u).flatMap f) := by
  have hset := flatMap_set_perm (f := f) ht u
  rw [hu] at hset
  refine (List.perm_append_right_iff (f t)).1 (List.Perm.trans ?_ hset.symm)
  rw [List.append_assoc]
  exact hl.append List.perm_append_comm

/-- **A step keeps this so.** -/
theorem Sound.step (hb : b.Sound S names) (h : b.Step S b') : b'.Sound S names := by
  obtain ⟨done, hnames, htasks, hskipped⟩ := hb.planned
  cases h with
  | @start n rest m hn hm =>
    refine ⟨⟨done ++ [n], by rw [hnames, hn]; simp, ?_, ?_⟩, fun t ht => ?_, ?_, ?_⟩
    · rw [plan_concat, hm, List.map_append, htasks]; rfl
    · rw [plan_concat, hm, hskipped]
    · rcases List.mem_append.1 ht with ht | ht
      · exact hb.tasks t ht
      · rw [List.mem_singleton.1 ht]; trivial
    · rw [List.flatMap_append]; simpa [SetupTask.calls] using hb.calls
    · rw [List.flatMap_append]; simpa [SetupTask.sent] using hb.sent
  | @skip n rest e hn he =>
    refine ⟨⟨done ++ [n], by rw [hnames, hn]; simp, ?_, ?_⟩, hb.tasks, hb.calls, hb.sent⟩
    · rw [plan_concat, he, htasks]
    · rw [plan_concat, he, hskipped]
  | @go i t phase cs es ht hgoes =>
    refine ⟨⟨done, hnames, ?_, hskipped⟩, fun u hu => ?_, perm_set ht hgoes.calls hb.calls,
      perm_set ht hgoes.sent hb.sent⟩
    · obtain ⟨hi, rfl⟩ := List.getElem?_eq_some_iff.1 ht
      have hi' : i < (b.tasks.map fun t => (t.name, t.module)).length := by simpa using hi
      have hat : (b.tasks.map fun t => (t.name, t.module))[i] =
          (b.tasks[i].name, b.tasks[i].module) := List.getElem_map _
      rw [← htasks, enter, List.map_set, ← hat, List.set_getElem_self]
    · rcases List.mem_or_eq_of_mem_set hu with hu | rfl
      · exact hb.tasks u hu
      · exact hgoes.sound (hb.tasks t (List.mem_of_getElem? ht))

/-! ## What becomes of each name -/

theorem plan_names (r : Registry α) (names : List String) :
    (Setup.plan r names).1.map Prod.fst = names.filter r.contains := by
  unfold Setup.plan Registry.lookup Registry.contains
  induction names with
  | nil => rfl
  | cons n names ih =>
    cases h : Fields.get? n r.modules <;> simp_all

theorem lookup_of_mem_plan {r : Registry α} {names : List String} {n : String} {m : α}
    (h : (n, m) ∈ (Setup.plan r names).1) : r.lookup n = .ok m := by
  obtain ⟨n', -, hn⟩ := List.mem_filterMap.1 h
  split at hn
  · rename_i m' hm; cases hn; exact hm
  · cases hn

theorem Sound.lookup (hb : b.Sound S names) {t : SetupTask α ε} (ht : t ∈ b.tasks) :
    S.registry.lookup t.name = .ok t.module := by
  obtain ⟨done, -, htasks, -⟩ := hb.planned
  exact lookup_of_mem_plan (htasks ▸ List.mem_map_of_mem ht)

theorem Sound.made (hb : b.Sound S names) {c : SetupCall ε} (hc : c ∈ b.calls) :
    ∃ t ∈ b.tasks, t.Made S c := by
  obtain ⟨t, ht, hct⟩ := List.mem_flatMap.1 (hb.calls.mem_iff.1 hc)
  exact ⟨t, ht, (hb.tasks t ht).made hct⟩

/-- The names that were looked up are split. -/
theorem Sound.split (hb : b.Sound S names) (hnames : b.names = []) :
    b.tasks.map (·.name) = names.filter S.registry.contains ∧
      b.skipped = names.filter (fun n => !S.registry.contains n) ∧
      b.tasks.length + b.skipped.length = names.length := by
  obtain ⟨done, hdone, htasks, hskipped⟩ := hb.planned
  rw [hnames, List.append_nil] at hdone
  subst hdone
  have hstarted : b.tasks.map (·.name) = names.filter S.registry.contains := by
    rw [← plan_names, ← htasks, List.map_map]
    rfl
  refine ⟨hstarted, hskipped, ?_⟩
  rw [← List.length_map (·.name), hstarted, hskipped]
  exact (List.length_eq_length_filter_add _).symm

/-! ## Outcomes -/

end SetupBatch

theorem configured_configFor (resolver : Resolver) (n : String) :
    resolver n = .ok (Setup.configFor resolver n) ∨
      (∃ e, resolver n = .error e) ∧ Setup.configFor resolver n = .empty := by
  unfold Setup.configFor
  cases h : resolver n with
  | ok bytes => exact Or.inl rfl
  | error e => exact Or.inr ⟨⟨e, rfl⟩, rfl⟩

theorem SetupTask.Made.configured {S : SetupSetting α ε} {t : SetupTask α ε} {c : SetupCall ε}
    (h : t.Made S c) : c.Configured S.resolver := by
  unfold SetupCall.Configured
  rw [h.config, h.name]
  exact configured_configFor S.resolver t.name

theorem tells_ofExcept (message : ε → String) {n : String} {c : SetupCall ε} (hn : c.name = n)
    {r : Except ε Unit} (hr : c.effect.ending = .returned r) :
    (SetupOutcome.ofExcept message n r).Tells message c := by
  subst hn
  cases r with
  | ok u =>
    refine ⟨rfl, ⟨fun _ => hr, fun _ => rfl⟩, fun e he => ?_⟩
    rw [hr] at he
    cases he
  | error e =>
    refine ⟨rfl, ⟨nofun, fun h => ?_⟩, fun e' he => ?_⟩
    · rw [hr] at h; cases h
    · rw [hr] at he; cases he; rfl

namespace SetupBatch

variable {S : SetupSetting α ε} {b b' : SetupBatch α ε} {names : List String}

/-- Tasks that have ended have made one call each, and outcomes tell of the calls
    that returned. -/
theorem ended_calls (message : ε → String) :
    ∀ {ts : List (SetupTask α ε)}, (∀ t ∈ ts, t.Sound S) → (∀ t ∈ ts, t.isEnded = true) →
      (ts.flatMap (·.calls)).map (·.name) = ts.map (·.name) ∧
      List.Forall₂ (SetupOutcome.Tells message) (ts.filterMap (·.outcome? message))
        ((ts.flatMap (·.calls)).filter (·.effect.ending.isReturned))
  | [], _, _ => ⟨rfl, .nil⟩
  | t :: ts, hsound, hended => by
    obtain ⟨call, hp⟩ := SetupTask.exists_ended (hended t List.mem_cons_self)
    obtain ⟨hnames, houtcomes⟩ := ended_calls message
      (fun u hu => hsound u (List.mem_cons_of_mem _ hu))
      (fun u hu => hended u (List.mem_cons_of_mem _ hu))
    have hcalls : t.calls = [call] := by rw [SetupTask.calls, hp]
    have hname : call.name = t.name :=
      ((hsound t List.mem_cons_self).made (hcalls ▸ List.mem_cons_self)).name
    rw [List.flatMap_cons, hcalls, List.singleton_append]
    refine ⟨by rw [List.map_cons, hnames, hname, List.map_cons], ?_⟩
    cases hending : call.effect.ending with
    | returned r =>
      have ho : t.outcome? message = some (.ofExcept message t.name r) := by
        simp [SetupTask.outcome?, hp, hending]
      rw [List.filterMap_cons_some ho,
        List.filter_cons_of_pos (by simp [hending, SetupEnding.isReturned])]
      exact .cons (tells_ofExcept message hname hending) houtcomes
    | panicked =>
      have ho : t.outcome? message = none := by simp [SetupTask.outcome?, hp, hending]
      rw [List.filterMap_cons_none ho,
        List.filter_cons_of_neg (by simp [hending, SetupEnding.isReturned])]
      exact houtcomes

theorem isOver_iff : b.isOver = true ↔ b.names = [] ∧ ∀ t ∈ b.tasks, t.isEnded = true := by
  simp [isOver]

theorem join?_eq_some {message : ε → String} {os : List SetupOutcome} :
    b.join? message = some os ↔ b.isOver = true ∧ b.outcomes message = os := by
  simp [join?]

/-- **What the outcomes say** when all is over. -/
theorem Sound.accounts (message : ε → String) (hb : b.Sound S names) (hover : b.isOver = true) :
    b.Accounts S.registry message names (b.outcomes message) := by
  obtain ⟨hnames, hended⟩ := isOver_iff.1 hover
  obtain ⟨hcalls, houtcomes⟩ := ended_calls message hb.tasks hended
  rw [(hb.split hnames).1] at hcalls
  refine ⟨⟨_, hb.calls.symm, hcalls, houtcomes⟩, fun hreturned => ?_⟩
  rw [List.filter_eq_self.2 fun c hc => hreturned c (hb.calls.symm.mem_iff.1 hc)] at houtcomes
  rw [← hcalls, ← List.forall₂_eq_eq_eq, List.forall₂_map_left_iff, List.forall₂_map_right_iff]
  exact houtcomes.imp fun o c ho => ho.module

/-- What tasks that have ended come to, if setups can only do one thing. -/
theorem ended_outcomes (message : ε → String) (run : α → ByteArray → List Event × Except ε Unit)
    (hmay : ∀ m config e, S.may m config e →
      e = ⟨(run m config).1, .returned (run m config).2⟩) :
    ∀ {ts : List (SetupTask α ε)}, (∀ t ∈ ts, t.Sound S) → (∀ t ∈ ts, t.isEnded = true) →
      ts.filterMap (·.outcome? message) = ts.map (fun t =>
        .ofExcept message t.name (run t.module (Setup.configFor S.resolver t.name)).2) ∧
      ts.flatMap (·.sent) = ts.flatMap fun t =>
        (run t.module (Setup.configFor S.resolver t.name)).1
  | [], _, _ => ⟨rfl, rfl⟩
  | t :: ts, hsound, hended => by
    obtain ⟨call, hp⟩ := SetupTask.exists_ended (hended t List.mem_cons_self)
    obtain ⟨houtcomes, hsent⟩ := ended_outcomes message run hmay
      (fun u hu => hsound u (List.mem_cons_of_mem _ hu))
      (fun u hu => hended u (List.mem_cons_of_mem _ hu))
    have hmade : t.Made S call :=
      (hsound t List.mem_cons_self).made (by simp [SetupTask.calls, hp])
    have heffect := hmay _ _ _ hmade.effect
    rw [hmade.config] at heffect
    have ho : t.outcome? message = some (.ofExcept message t.name
        (run t.module (Setup.configFor S.resolver t.name)).2) := by
      simp only [SetupTask.outcome?, hp, heffect]
    have hs : t.sent = (run t.module (Setup.configFor S.resolver t.name)).1 := by
      simp only [SetupTask.sent, hp, heffect]
    constructor
    · rw [List.filterMap_cons_some ho, houtcomes, List.map_cons]
    · rw [List.flatMap_cons, List.flatMap_cons, hsent, hs]

/-- What comes of a list, if setups can only do one thing. -/
theorem Sound.outcomes_eq (message : ε → String) (run : α → ByteArray → List Event × Except ε Unit)
    (hmay : ∀ m config e, S.may m config e →
      e = ⟨(run m config).1, .returned (run m config).2⟩)
    (hb : b.Sound S names) (hover : b.isOver = true) :
    b.outcomes message = (Setup.plan S.registry names).1.map (fun f =>
        .ofExcept message f.1 (run f.2 (Setup.configFor S.resolver f.1)).2) ∧
      b.sent.Perm ((Setup.plan S.registry names).1.flatMap fun f =>
        (run f.2 (Setup.configFor S.resolver f.1)).1) := by
  obtain ⟨hnames, hended⟩ := isOver_iff.1 hover
  obtain ⟨done, hdone, htasks, -⟩ := hb.planned
  rw [hnames, List.append_nil] at hdone
  subst hdone
  obtain ⟨houtcomes, hsent⟩ := ended_outcomes message run hmay hb.tasks hended
  rw [← htasks, List.map_map, List.flatMap_map]
  exact ⟨houtcomes, hb.sent.trans (.of_eq hsent)⟩

/-! ## Independence -/

/-- **The configuration of a module** is a matter of what the resolver gives for it. -/
theorem Sound.config_eq {S' : SetupSetting α ε} {names' : List String} (hb : b.Sound S names)
    (hb' : b'.Sound S' names') {c c' : SetupCall ε} (hc : c ∈ b.calls) (hc' : c' ∈ b'.calls)
    (hname : c.name = c'.name) (hresolved : S.resolver c.name = S'.resolver c.name) :
    c.config = c'.config := by
  obtain ⟨t, -, ht⟩ := hb.made hc
  obtain ⟨t', -, ht'⟩ := hb'.made hc'
  rw [ht.config, ht'.config, ← ht.name, ← ht'.name, ← hname]
  unfold Setup.configFor
  rw [hresolved]

theorem exists_task_of_outcome {message : ε → String} {o : SetupOutcome}
    (h : o ∈ b.outcomes message) :
    ∃ t ∈ b.tasks, ∃ call r, t.phase = .ended call ∧ call.effect.ending = .returned r ∧
      o = .ofExcept message t.name r := by
  obtain ⟨t, ht, ho⟩ := List.mem_filterMap.1 h
  unfold SetupTask.outcome? at ho
  split at ho
  · rename_i call hp
    split at ho
    · rename_i r hr; cases ho; exact ⟨t, ht, call, r, hp, hr, rfl⟩
    · cases ho
  · cases ho

theorem ofExcept_module (message : ε → String) (n : String) (r : Except ε Unit) :
    (SetupOutcome.ofExcept message n r).module = n := by
  cases r <;> rfl

/-- **The outcome of a module** is a matter of that module alone. -/
theorem Sound.outcome_eq {S' : SetupSetting α ε} {names' : List String} {message : ε → String}
    (hb : b.Sound S names) (hb' : b'.Sound S' names') {o o' : SetupOutcome}
    (ho : o ∈ b.outcomes message) (ho' : o' ∈ b'.outcomes message) (hmodule : o.module = o'.module)
    (halike : S.Alike S' o.module) : o = o' := by
  obtain ⟨t, ht, call, r, hp, hr, rfl⟩ := exists_task_of_outcome ho
  obtain ⟨t', ht', call', r', hp', hr', rfl⟩ := exists_task_of_outcome ho'
  rw [ofExcept_module] at hmodule halike
  rw [ofExcept_module] at hmodule
  have hmade : t.Made S call := (hb.tasks t ht).made (by simp [SetupTask.calls, hp])
  have hmade' : t'.Made S' call' := (hb'.tasks t' ht').made (by simp [SetupTask.calls, hp'])
  have hconfig : Setup.configFor S'.resolver t'.name = Setup.configFor S.resolver t.name := by
    rw [← hmodule, Setup.configFor, Setup.configFor, halike.resolved]
  have hlookup := hb.lookup ht
  have hsame : t'.module = t.module := by
    have h := hb'.lookup ht'
    rw [← hmodule, ← halike.found, hlookup] at h
    exact (Except.ok.inj h).symm
  have heffect := hmade.effect
  have heffect' := hmade'.effect
  rw [hmade.config] at heffect
  rw [hmade'.config, hconfig, hsame] at heffect'
  have hending := halike.ends _ _ _ hlookup heffect heffect'
  rw [hr, hr'] at hending
  cases hending
  rw [hmodule]

end SetupBatch

theorem SetupBatch.Sound.accounted {S : SetupSetting α ε} {b : SetupBatch α ε} {names : List String}
    (hb : b.Sound S names) (message : ε → String) : b.Accounted S message names where
  configured c hc := by
    obtain ⟨t, -, ht⟩ := hb.made hc
    exact ht.configured
  skipped hnames := (hb.split hnames).2.1
  started hnames := (hb.split hnames).2.2
  told os hos := by
    obtain ⟨hover, rfl⟩ := SetupBatch.join?_eq_some.1 hos
    exact hb.accounts message hover

theorem SetupBatch.Sound.independent {S S' : SetupSetting α ε} {b b' : SetupBatch α ε}
    {names names' : List String} (hb : b.Sound S names) (hb' : b'.Sound S' names')
    (message : ε → String) : SetupBatch.Independent S S' message b b' :=
  ⟨fun _ hc _ hc' => hb.config_eq hb' hc hc', fun _ ho _ ho' => hb.outcome_eq hb' ho ho'⟩

end Reactor
