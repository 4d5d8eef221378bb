/-
  How often modules are set up.

  A configuration lists modules by name, and may list a name more than once.  Each
  listing of a module that is registered is one call of its setup.

  * `SetupBatch.CalledOnce` says that each listed module that is registered is set
    up once; `calledOnce_iff`: so it is if and only if none is listed again;
  * `sent_perm`: what setups have sent in the end is what they were called for;
  * `set_up_once_iff`: the same of the lists in a configuration;
  * `onetime_set_up_twice`: a configuration that lists `onetime` twice is accepted,
    and its event is sent twice.
-/
import Reactor.Config.File
import Reactor.Proofs.Engine.Activation

namespace Reactor

variable {α ε : Type}

namespace SetupBatch

/-- How often the setup of the module with a name was called. -/
def timesCalled (b : SetupBatch α ε) (n : String) : Nat := b.calls.countP (·.name == n)

/-- Each listed module that is registered is set up once. -/
def CalledOnce (r : Registry α) (names : List String) (b : SetupBatch α ε) : Prop :=
  ∀ n ∈ names, r.contains n → b.timesCalled n = 1

variable {S : SetupSetting α ε} {r : Registry α} {names : List String} {b : SetupBatch α ε}
  {message : ε → String} {os : List SetupOutcome}

/-- **Each listing of a registered module is a call of its setup**, and there is no
    other call. -/
theorem Accounts.timesCalled (h : b.Accounts r message names os) (n : String) :
    b.timesCalled n = (names.filter r.contains).count n := by
  obtain ⟨cs, hperm, hnames, -⟩ := h.calls
  rw [SetupBatch.timesCalled, ← hperm.countP_eq, ← hnames, List.count, List.countP_map]
  rfl

theorem Accounts.calledOnce_iff (h : b.Accounts r message names os) :
    b.CalledOnce r names ↔ (names.filter r.contains).Nodup := by
  rw [List.nodup_iff_count_eq_one]
  constructor
  · intro honce n hn
    obtain ⟨hlisted, hregistered⟩ := List.mem_filter.1 hn
    rw [← h.timesCalled]
    exact honce n hlisted hregistered
  · intro hcount n hlisted hregistered
    rw [h.timesCalled]
    exact hcount n (List.mem_filter.2 ⟨hlisted, hregistered⟩)

/-- **What setups have sent** in the end is what each call of one sends. -/
theorem Sound.sent_perm (hb : b.Sound S names) (hover : b.isOver = true) :
    b.sent.Perm (b.calls.flatMap (·.effect.events)) := by
  obtain ⟨-, hended⟩ := isOver_iff.1 hover
  have hsent : b.tasks.flatMap (·.sent) =
      (b.tasks.flatMap (·.calls)).flatMap (·.effect.events) := by
    rw [List.flatMap_assoc]
    refine List.flatMap_congr fun t ht => ?_
    obtain ⟨call, hp⟩ := SetupTask.exists_ended (hended t ht)
    simp [SetupTask.sent, SetupTask.calls, hp]
  exact hb.sent.trans (hsent ▸ (hb.calls.flatMap_right _).symm)

end SetupBatch

/-- The start of the modules that a configuration lists. -/
def Config.activation (c : Config) (queue : Queue) : Activation :=
  .start c.modules.actions c.modules.sources queue

/-- **When each module is set up once.**  For the lists of any configuration, and in
    whatever order tasks take turns: when all have ended, the setup of each module
    was called as often as its name is listed, if it is registered, and what the
    setups of sources have sent is what these calls send.  So each listed module
    that is registered was set up once, if and only if none is listed again. -/
theorem set_up_once_iff (config : Config) {engine : Engine} {resolver : Resolver}
    {conduct : Conduct} {queue : Queue} {a : Activation} {os : List SetupOutcome}
    (ha : (config.activation queue).Leads engine resolver conduct a) (hos : a.join? = some os) :
    (∀ n, a.actions.timesCalled n =
      (config.modules.actions.filter engine.actions.contains).count n) ∧
    (∀ n, a.sources.timesCalled n =
      (config.modules.sources.filter engine.sources.contains).count n) ∧
    a.sources.sent.Perm (a.sources.calls.flatMap (·.effect.events)) ∧
    (a.actions.CalledOnce engine.actions config.modules.actions ∧
        a.sources.CalledOnce engine.sources config.modules.sources ↔
      (config.modules.actions.filter engine.actions.contains).Nodup ∧
        (config.modules.sources.filter engine.sources.contains).Nodup) := by
  obtain ⟨hsound, -⟩ := Activation.Leads.sound ha
  obtain ⟨fromActions, fromSources, hactions, hsources, -⟩ := Activation.join?_eq_some.1 hos
  have haccounts := (hsound.actions.accounted ActionError.message).told _ hactions
  have haccounts' := (hsound.sources.accounted SourceError.message).told _ hsources
  refine ⟨haccounts.timesCalled, haccounts'.timesCalled, ?_, ?_⟩
  · exact hsound.sources.sent_perm (SetupBatch.join?_eq_some.1 hsources).1
  · exact and_congr haccounts.calledOnce_iff haccounts'.calledOnce_iff

/-- The modules that are always there. -/
def Engine.builtin : Engine :=
  .new (Builtin.addActions .actions) (Builtin.addSources .sources) fun _ _ _ => .ok .stop

/-- A start with the modules that are always there comes to an end. -/
theorem exists_builtin_end (config : Config) :
    ∃ a os, (config.activation ⟨1, [], 1⟩).Leads .builtin .empty (.proper "now" true) a ∧
      a.join? = some os := by
  have hresponds : (Conduct.proper "now" true).Responds :=
    ⟨fun _ _ => ⟨_, rfl⟩, fun _ _ => ⟨_, rfl⟩⟩
  have hstart : (config.activation ⟨1, [], 1⟩).Leads .builtin .empty (.proper "now" true)
      (config.activation ⟨1, [], 1⟩) := .refl
  exact hstart.exists_join ⟨Nat.one_pos, Nat.one_pos⟩ hresponds

/-- A name that is listed twice, but is that of no source, does no harm. -/
theorem set_up_once_ghost :
    let config : Config :=
      { modules := { actions := ["dummy"], sources := ["ghost", "onetime", "ghost"] } }
    ∃ a os, (config.activation ⟨1, [], 1⟩).Leads .builtin .empty (.proper "now" true) a ∧
      a.join? = some os ∧
      a.actions.CalledOnce Engine.builtin.actions config.modules.actions ∧
        a.sources.CalledOnce Engine.builtin.sources config.modules.sources := by
  intro config
  obtain ⟨a, os, ha, hos⟩ := exists_builtin_end config
  obtain ⟨-, -, -, hiff⟩ := set_up_once_iff config ha hos
  exact ⟨a, os, ha, hos, hiff.2 (by decide +kernel)⟩

/-- A configuration that lists `onetime` twice is accepted, its setup is called
    twice, and two events are sent. -/
theorem onetime_set_up_twice :
    ∃ config, Config.ofBytes "[modules]\nevent_sources = [\"onetime\", \"onetime\"]\n".toUTF8 =
        .ok config ∧
      ∃ a os, (config.activation ⟨1, [], 1⟩).Leads .builtin .empty (.proper "now" true) a ∧
        a.join? = some os ∧ a.sources.timesCalled "onetime" = 2 ∧
        a.sources.sent = List.replicate 2 ⟨"onetime", [("timestamp", .str "now")]⟩ := by
  have hlists : (Config.ofBytes
      "[modules]\nevent_sources = [\"onetime\", \"onetime\"]\n".toUTF8).toOption.map (·.modules) =
        some ⟨["onetime", "onetime"], []⟩ := by decide +kernel
  obtain ⟨config, hconfig, hmodules⟩ := Option.map_eq_some_iff.1 hlists
  obtain ⟨a, os, ha, hos⟩ := exists_builtin_end config
  obtain ⟨hsound, -⟩ := Activation.Leads.sound ha
  obtain ⟨fromActions, fromSources, -, hsources, -⟩ := Activation.join?_eq_some.1 hos
  have haccounts := (hsound.sources.accounted SourceError.message).told _ hsources
  obtain ⟨-, hsent⟩ := Activation.join_eq_startModules ha hos
  refine ⟨config, ?_, a, os, ha, hos, ?_, ?_⟩
  · cases h : Config.ofBytes "[modules]\nevent_sources = [\"onetime\", \"onetime\"]\n".toUTF8 with
    | error e => rw [h] at hconfig; cases hconfig
    | ok c => rw [h] at hconfig; cases hconfig; rfl
  · rw [haccounts.timesCalled, hmodules]
    decide +kernel
  · rw [hmodules] at hsent
    exact List.perm_replicate.1 hsent

end Reactor
