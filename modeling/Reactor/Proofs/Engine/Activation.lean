/-
  All listed modules, set up at the same time.

  * `SetupBatch.Runs` is what the tasks of a list do when they alone take turns with
    the event loop; `exists_ended`: each of them can come to its end, and
    `exists_isOver`: so can all;
  * `Activation.Sound` is kept by each move;
  * `modules_accounted`: what becomes of the listed modules, in whatever order the
    tasks take turns;
  * `join_eq_startModules`: it is the same as one after the other.
-/
import Reactor.Engine.Builtin
import Reactor.Proofs.Engine.Setup

namespace Reactor

variable {α ε : Type}

/-! ## Coming to an end -/

/-- A queue that events get through, if the event loop takes them out. -/
structure Queue.Usable (q : Queue) : Prop where
  senders : 0 < q.senders
  capacity : 0 < q.capacity

namespace SetupBatch

variable {S : SetupSetting α ε} {b c d : SetupBatch α ε} {names : List String} {q q' : Queue}

/-- What the tasks of a list do when the event loop and they alone take turns. -/
inductive Runs (S : SetupSetting α ε) (b : SetupBatch α ε) (q : Queue) :
    SetupBatch α ε → Queue → Prop
  | refl : Runs S b q b q
  | move {c d : SetupBatch α ε} {q' q'' : Queue} (m : SetupMove ε) : Runs S b q c q' →
      Activation.AllowsCall S.may c m → c.move? S.registry S.resolver q' m = some (d, q'') →
      Runs S b q d q''
  | take {c : SetupBatch α ε} {q' q'' : Queue} {e : Event} : Runs S b q c q' →
      q'.take? = some (e, q'') → Runs S b q c q''

theorem Runs.trans {q'' : Queue} (h : Runs S b q c q') (h' : Runs S c q' d q'') :
    Runs S b q d q'' := by
  induction h' with
  | refl => exact h
  | move m _ ha hm ih => exact ih.move m ha hm
  | take _ ht ih => exact ih.take ht

theorem Runs.sound (h : Runs S b q c q') (hb : b.Sound S names) : c.Sound S names := by
  induction h with
  | refl => exact hb
  | move m _ ha hm ih => exact ih.step (step_of_move? hm ha)
  | take _ _ ih => exact ih

/-- The event loop empties the queue. -/
theorem exists_emptied (hq : q.Usable) :
    ∃ q', Runs S b q b q' ∧ q'.Usable ∧ q'.events = [] := by
  obtain ⟨capacity, events, senders⟩ := q
  induction events with
  | nil => exact ⟨_, .refl, hq, rfl⟩
  | cons e events ih =>
    obtain ⟨q', hruns, hq', hempty⟩ := ih ⟨hq.senders, hq.capacity⟩
    exact ⟨q', (Runs.refl.take rfl).trans hruns, hq', hempty⟩

/-- Only the task at a place has come to another phase. -/
structure Only (i : Nat) (t : SetupTask α ε) (phase : SetupPhase ε) (b c : SetupBatch α ε) :
    Prop where
  names : c.names = b.names
  skipped : c.skipped = b.skipped
  tasks : c.tasks = b.tasks.set i { t with phase }

theorem Only.getElem? {i : Nat} {t : SetupTask α ε} {phase : SetupPhase ε} (h : Only i t phase b c)
    (ht : b.tasks[i]? = some t) : c.tasks[i]? = some { t with phase } := by
  rw [h.tasks, List.getElem?_set_self (List.getElem?_eq_some_iff.1 ht).1]

theorem Only.trans {i : Nat} {t : SetupTask α ε} {phase phase' : SetupPhase ε}
    (h : Only i t phase b c) (h' : Only i { t with phase } phase' c d) : Only i t phase' b d :=
  ⟨h'.names.trans h.names, h'.skipped.trans h.skipped, by rw [h'.tasks, h.tasks, List.set_set]⟩

/-- A setup that was called sends what is left and ends. -/
theorem exists_finished {i : Nat} : ∀ (k : Nat) {b : SetupBatch α ε} {t : SetupTask α ε} {q : Queue}
    {call : SetupCall ε} {n : Nat}, b.tasks[i]? = some t → t.phase = .called call n →
    call.effect.events.length = n + k → q.Usable →
    ∃ c q', Runs S b q c q' ∧ q'.Usable ∧ Only i t (.ended call) b c
  | 0, b, t, q, call, n, ht, hp, hlength, hq => by
    have hm : b.move? S.registry S.resolver q (.finish i) =
        some (b.enter i t (.ended call), q) := by
      simp [move?, ht, hp, hlength]
    exact ⟨_, q, Runs.refl.move (.finish i) trivial hm, hq, rfl, rfl, rfl⟩
  | k + 1, b, t, q, call, n, ht, hp, hlength, hq => by
    obtain ⟨q', hemptied, hq', hempty⟩ := exists_emptied (S := S) (b := b) hq
    have hlt : n < call.effect.events.length := by omega
    obtain ⟨e, he⟩ : ∃ e, call.effect.events[n]? = some e := ⟨_, List.getElem?_eq_getElem hlt⟩
    have hsend : q'.send? e = some { q' with events := q'.events ++ [e] } :=
      if_pos ⟨hq'.senders, by rw [hempty]; exact hq'.capacity⟩
    have hm : b.move? S.registry S.resolver q' (.send i) = some
        ({ b with sent := b.sent ++ [e] }.enter i t (.called call (n + 1)),
          { q' with events := q'.events ++ [e] }) := by
      simp [move?, ht, hp, he, hsend]
    have hone : Only i t (.called call (n + 1)) b
        ({ b with sent := b.sent ++ [e] }.enter i t (.called call (n + 1))) := ⟨rfl, rfl, rfl⟩
    have husable : Queue.Usable { q' with events := q'.events ++ [e] } := ⟨hq'.senders, hq'.capacity⟩
    obtain ⟨c, q'', hruns, hq'', honly⟩ :=
      exists_finished k (hone.getElem? ht) rfl (by omega) husable
    exact ⟨c, q'', (hemptied.move (.send i) trivial hm).trans hruns, hq'', hone.trans honly⟩

/-- A task that has its configuration calls the setup, and this ends. -/
theorem exists_called {i : Nat} {t : SetupTask α ε} {config : ByteArray} (ht : b.tasks[i]? = some t)
    (hp : t.phase = .configured config) (hq : q.Usable)
    (hmay : ∃ effect, S.may t.module config effect) :
    ∃ c q' call, Runs S b q c q' ∧ q'.Usable ∧ Only i t (.ended call) b c := by
  obtain ⟨effect, heffect⟩ := hmay
  let call : SetupCall ε := ⟨t.name, config, effect⟩
  have hm : b.move? S.registry S.resolver q (.call i effect) = some
      ({ b with calls := b.calls ++ [call] }.enter i t (.called call 0), q) := by
    simp [move?, ht, hp, call]
  have hallows : Activation.AllowsCall S.may b (.call i effect) := by
    intro t' config' ht' hp'
    rw [ht] at ht'
    cases ht'
    rw [hp] at hp'
    cases hp'
    exact heffect
  have hone : Only i t (.called call 0) b
      ({ b with calls := b.calls ++ [call] }.enter i t (.called call 0)) := ⟨rfl, rfl, rfl⟩
  obtain ⟨c, q', hruns, hq', honly⟩ :=
    exists_finished _ (hone.getElem? ht) rfl (Nat.zero_add _).symm hq
  exact ⟨c, q', call, (Runs.refl.move _ hallows hm).trans hruns, hq', hone.trans honly⟩

/-- **A task can come to its end** while all others stay where they are. -/
theorem exists_ended {i : Nat} {t : SetupTask α ε} (ht : b.tasks[i]? = some t) (hsound : t.Sound S)
    (hq : q.Usable) (hmay : ∀ config, ∃ effect, S.may t.module config effect) :
    ∃ c q' call, Runs S b q c q' ∧ q'.Usable ∧ Only i t (.ended call) b c := by
  cases hp : t.phase with
  | ended call =>
    obtain ⟨hi, rfl⟩ := List.getElem?_eq_some_iff.1 ht
    refine ⟨b, q, call, .refl, hq, rfl, rfl, ?_⟩
    rw [← hp]
    exact (List.set_getElem_self hi).symm
  | called call n =>
    unfold SetupTask.Sound at hsound
    rw [hp] at hsound
    obtain ⟨k, hk⟩ := Nat.exists_eq_add_of_le hsound.2
    obtain ⟨c, q', hruns, hq', honly⟩ := exists_finished k ht hp hk hq
    exact ⟨c, q', call, hruns, hq', honly⟩
  | configured config => exact exists_called ht hp hq (hmay config)
  | spawned =>
    let phase : SetupPhase ε := .configured (Setup.configFor S.resolver t.name)
    have hm : b.move? S.registry S.resolver q (.resolve i) = some (b.enter i t phase, q) := by
      simp [move?, ht, hp, phase]
    have hone : Only i t phase b (b.enter i t phase) := ⟨rfl, rfl, rfl⟩
    obtain ⟨c, q', call, hruns, hq', honly⟩ := exists_called (hone.getElem? ht) rfl hq (hmay _)
    exact ⟨c, q', call, (Runs.refl.move (.resolve i) trivial hm).trans hruns, hq', hone.trans honly⟩

/-- All names can be looked up. -/
theorem exists_lookedUp (S : SetupSetting α ε) (q : Queue) :
    ∀ {ns : List String} {b : SetupBatch α ε}, b.names = ns → ∃ c, Runs S b q c q ∧ c.names = []
  | [], b, hb => ⟨b, .refl, hb⟩
  | n :: ns, b, hb => by
    obtain ⟨c, hc, hnames⟩ : ∃ c, b.lookUp? S.registry = some c ∧ c.names = ns := by
      cases h : S.registry.lookup n with
      | ok m =>
        refine ⟨{ b with names := ns, tasks := b.tasks ++ [⟨n, m, .spawned⟩] }, ?_, rfl⟩
        simp only [lookUp?, hb, h]
      | error e =>
        refine ⟨{ b with names := ns, skipped := b.skipped ++ [n] }, ?_, rfl⟩
        simp only [lookUp?, hb, h]
    have hm : b.move? S.registry S.resolver q .lookUp = some (c, q) := by
      rw [move?, hc]; rfl
    obtain ⟨d, hruns, hd⟩ := exists_lookedUp S q hnames
    exact ⟨d, (Runs.refl.move .lookUp trivial hm).trans hruns, hd⟩

/-- The first tasks can end. -/
theorem exists_ended_upTo (hb : b.Sound S names) (hq : q.Usable)
    (hmay : ∀ m config, ∃ effect, S.may m config effect) : ∀ k ≤ b.tasks.length,
    ∃ c q', Runs S b q c q' ∧ q'.Usable ∧ c.names = b.names ∧ c.tasks.length = b.tasks.length ∧
      ∀ i < k, ∀ t, c.tasks[i]? = some t → t.isEnded = true
  | 0, _ => ⟨b, q, .refl, hq, rfl, rfl, nofun⟩
  | k + 1, hk => by
    obtain ⟨c, q', hruns, hq', hnames, hlength, hended⟩ :=
      exists_ended_upTo hb hq hmay k (Nat.le_of_succ_le hk)
    have hlt : k < c.tasks.length := by omega
    have ht := List.getElem?_eq_getElem hlt
    obtain ⟨d, q'', call, hruns', hq'', honly⟩ :=
      exists_ended ht ((hruns.sound hb).tasks _ (List.getElem_mem hlt)) hq' (hmay _)
    refine ⟨d, q'', hruns.trans hruns', hq'', honly.names.trans hnames, ?_, fun i hi t ht' => ?_⟩
    · rw [honly.tasks, List.length_set, hlength]
    · rcases Nat.lt_succ_iff_lt_or_eq.1 hi with hi | rfl
      · rw [honly.tasks, List.getElem?_set_ne (Nat.ne_of_gt hi)] at ht'
        exact hended i hi t ht'
      · rw [honly.getElem? ht] at ht'
        cases ht'
        rfl

/-- **All can be over**, from any state. -/
theorem exists_isOver (hb : b.Sound S names) (hq : q.Usable)
    (hmay : ∀ m config, ∃ effect, S.may m config effect) :
    ∃ c q', Runs S b q c q' ∧ q'.Usable ∧ c.isOver = true := by
  obtain ⟨c, hlookedUp, hnames⟩ := exists_lookedUp S q (rfl : b.names = b.names)
  obtain ⟨d, q', hruns, hq', hsame, hlength, hended⟩ :=
    exists_ended_upTo (hlookedUp.sound hb) hq hmay _ (Nat.le_refl _)
  refine ⟨d, q', hlookedUp.trans hruns, hq', isOver_iff.2 ⟨hsame.trans hnames, fun t ht => ?_⟩⟩
  obtain ⟨i, hi, rfl⟩ := List.getElem_of_mem ht
  exact hended i (hlength ▸ hi) _ (List.getElem?_eq_getElem hi)

end SetupBatch

/-! ## All modules -/

/-- Action modules, as they are found, configured, and do. -/
def Conduct.actions (conduct : Conduct) (engine : Engine) (resolver : Resolver) :
    SetupSetting ActionModule ActionError := ⟨engine.actions, resolver, conduct.action⟩

/-- Event sources, as they are found, configured, and do. -/
def Conduct.sources (conduct : Conduct) (engine : Engine) (resolver : Resolver) :
    SetupSetting EventSource SourceError := ⟨engine.sources, resolver, conduct.source⟩

/-- Setups that may do something, whatever their module and its bytes are. -/
structure Conduct.Responds (conduct : Conduct) : Prop where
  action : ∀ m config, ∃ effect, conduct.action m config effect
  source : ∀ m config, ∃ effect, conduct.source m config effect

namespace Activation

variable {engine : Engine} {resolver : Resolver} {conduct : Conduct} {a b c : Activation}
  {actionNames sourceNames : List String} {queue : Queue}

theorem Leads.trans (h : a.Leads engine resolver conduct b)
    (h' : b.Leads engine resolver conduct c) :
    a.Leads engine resolver conduct c := by
  induction h' with
  | refl => exact h
  | move m _ ha hm ih => exact ih.move m ha hm

/-- Both lists are as they should be, and sources come after action modules. -/
structure Sound (engine : Engine) (resolver : Resolver) (conduct : Conduct)
    (actionNames sourceNames : List String) (a : Activation) : Prop where
  actions : a.actions.Sound (conduct.actions engine resolver) actionNames
  sources : a.sources.Sound (conduct.sources engine resolver) sourceNames
  order : a.actions.names ≠ [] → a.sources.tasks = []

theorem names_of_step {S : SetupSetting α ε} {b b' : SetupBatch α ε} (h : b.Step S b')
    (hb : b.names = []) : b'.names = [] := by
  cases h with
  | start hn | skip hn => rw [hb] at hn; cases hn
  | go => exact hb

theorem usable_of_send? {q q' : Queue} {e : Event} (hq : q.Usable) (h : q.send? e = some q') :
    q'.Usable := by
  unfold Queue.send? at h
  split at h
  · cases h; exact ⟨hq.senders, hq.capacity⟩
  · cases h

theorem usable_of_move? {r : Registry α} {b b' : SetupBatch α ε} {q q' : Queue} {m : SetupMove ε}
    (hq : q.Usable) (h : b.move? r resolver q m = some (b', q')) : q'.Usable := by
  cases m with
  | lookUp => obtain ⟨c, -, hb⟩ := Option.map_eq_some_iff.1 h; cases hb; exact hq
  | resolve i | call i effect =>
    obtain ⟨t, -, h⟩ := Option.bind_eq_some_iff.1 h
    split at h <;> cases h
    exact hq
  | finish i =>
    obtain ⟨t, -, h⟩ := Option.bind_eq_some_iff.1 h
    split at h
    · split at h <;> cases h
      exact hq
    · cases h
  | send i =>
    obtain ⟨t, -, h⟩ := Option.bind_eq_some_iff.1 h
    split at h
    · obtain ⟨e, -, h⟩ := Option.bind_eq_some_iff.1 h
      obtain ⟨q'', hsend, h⟩ := Option.bind_eq_some_iff.1 h
      cases h
      exact usable_of_send? hq hsend
    · cases h

/-- **A move** keeps all this, and the queue usable. -/
theorem Sound.move (ha : a.Sound engine resolver conduct actionNames sourceNames) {m : Move}
    (hallows : a.Allows conduct m) (hm : a.move? engine resolver m = some b) :
    b.Sound engine resolver conduct actionNames sourceNames ∧
      (a.queue.Usable → b.queue.Usable) := by
  cases m with
  | action m =>
    obtain ⟨⟨actions, queue⟩, hmove, hb⟩ := Option.map_eq_some_iff.1 hm
    cases hb
    have hstep : a.actions.Step (conduct.actions engine resolver) actions :=
      SetupBatch.step_of_move? hmove hallows
    refine ⟨⟨ha.actions.step hstep, ha.sources, fun hnames => ha.order fun h => ?_⟩,
      fun hq => usable_of_move? hq hmove⟩
    exact hnames (names_of_step hstep h)
  | source m =>
    simp only [move?] at hm
    split at hm
    · rename_i hnames
      obtain ⟨⟨sources, queue⟩, hmove, hb⟩ := Option.map_eq_some_iff.1 hm
      cases hb
      have hstep : a.sources.Step (conduct.sources engine resolver) sources :=
        SetupBatch.step_of_move? hmove hallows
      exact ⟨⟨ha.actions, ha.sources.step hstep, fun h => (h (List.isEmpty_iff.1 hnames)).elim⟩,
        fun hq => usable_of_move? hq hmove⟩
    · cases hm
  | put e =>
    obtain ⟨queue, hsend, hb⟩ := Option.map_eq_some_iff.1 hm
    cases hb
    exact ⟨⟨ha.actions, ha.sources, ha.order⟩, fun hq => usable_of_send? hq hsend⟩
  | take =>
    obtain ⟨⟨e, queue⟩, htake, hb⟩ := Option.map_eq_some_iff.1 hm
    cases hb
    refine ⟨⟨ha.actions, ha.sources, ha.order⟩, fun hq => ?_⟩
    unfold Queue.take? at htake
    split at htake <;> cases htake
    exact ⟨hq.senders, hq.capacity⟩

theorem Leads.sound (h : (start actionNames sourceNames queue).Leads engine resolver conduct a) :
    a.Sound engine resolver conduct actionNames sourceNames ∧ (queue.Usable → a.queue.Usable) := by
  induction h with
  | refl => exact ⟨⟨.start _ _, .start _ _, fun _ => rfl⟩, id⟩
  | move m _ ha hm ih =>
    obtain ⟨hsound, husable⟩ := ih.1.move ha hm
    exact ⟨hsound, fun hq => husable (ih.2 hq)⟩

theorem leads_of_actions {actions : SetupBatch ActionModule ActionError} {q : Queue}
    (h : SetupBatch.Runs (conduct.actions engine resolver) a.actions a.queue actions q) :
    a.Leads engine resolver conduct { a with actions, queue := q } := by
  induction h with
  | refl => exact .refl
  | move m _ hallows hm ih =>
    refine ih.move (.action m) hallows (Option.map_eq_some_iff.2 ⟨_, hm, rfl⟩)
  | take _ ht ih => exact ih.move .take trivial (Option.map_eq_some_iff.2 ⟨_, ht, rfl⟩)

theorem leads_of_sources (hnames : a.actions.names = [])
    {sources : SetupBatch EventSource SourceError} {q : Queue}
    (h : SetupBatch.Runs (conduct.sources engine resolver) a.sources a.queue sources q) :
    a.Leads engine resolver conduct { a with sources, queue := q } := by
  induction h with
  | refl => exact .refl
  | move m _ hallows hm ih =>
    refine ih.move (.source m) hallows ?_
    rw [move?, if_pos (List.isEmpty_iff.2 hnames)]
    exact Option.map_eq_some_iff.2 ⟨_, hm, rfl⟩
  | take _ ht ih => exact ih.move .take trivial (Option.map_eq_some_iff.2 ⟨_, ht, rfl⟩)

theorem join?_eq_some {os : List SetupOutcome} : a.join? = some os ↔
    ∃ fromActions fromSources, a.actions.join? ActionError.message = some fromActions ∧
      a.sources.join? SourceError.message = some fromSources ∧ os = fromActions ++ fromSources := by
  constructor
  · intro h
    obtain ⟨fromActions, hactions, h⟩ := Option.bind_eq_some_iff.1 h
    obtain ⟨fromSources, hsources, h⟩ := Option.bind_eq_some_iff.1 h
    cases h
    exact ⟨_, _, hactions, hsources, rfl⟩
  · rintro ⟨fromActions, fromSources, hactions, hsources, rfl⟩
    rw [join?, hactions, hsources]
    rfl

/-- **All can be over**, from any state that is reached. -/
theorem Leads.exists_join
    (h : (start actionNames sourceNames queue).Leads engine resolver conduct a)
    (hq : queue.Usable) (hresponds : conduct.Responds) :
    ∃ c os, a.Leads engine resolver conduct c ∧ c.join? = some os := by
  obtain ⟨ha, husable⟩ := h.sound
  obtain ⟨actions, q, hruns, hq, hactions⟩ :=
    SetupBatch.exists_isOver ha.actions (husable hq) hresponds.action
  obtain ⟨sources, q', hruns', -, hsources⟩ :=
    SetupBatch.exists_isOver ha.sources hq hresponds.source
  have hnames : actions.names = [] := (SetupBatch.isOver_iff.1 hactions).1
  have hfirst : a.Leads engine resolver conduct { a with actions, queue := q } :=
    leads_of_actions hruns
  have hsecond : Leads engine resolver conduct { a with actions, queue := q }
      ⟨actions, sources, q'⟩ := leads_of_sources hnames hruns'
  refine ⟨_, actions.outcomes ActionError.message ++ sources.outcomes SourceError.message,
    hfirst.trans hsecond, ?_⟩
  exact join?_eq_some.2 ⟨_, _, if_pos hactions, if_pos hsources, rfl⟩

/-- **What becomes of listed modules.**  In whatever order tasks take turns: each
    setup is given what the resolver gives for its module, or nothing; what is not
    registered is skipped; the outcomes tell, in the order of the lists and of
    action modules first, of each module that is registered.  What becomes of a
    module is the same however the others fare in another run, and each task can
    come to its end while the others stay where they are. -/
theorem modules_accounted
    (ha : (start actionNames sourceNames queue).Leads engine resolver conduct a) :
    a.actions.Accounted (conduct.actions engine resolver) ActionError.message actionNames ∧
    a.sources.Accounted (conduct.sources engine resolver) SourceError.message sourceNames ∧
    (∀ os, a.join? = some os →
      (∃ fromActions fromSources, a.actions.join? ActionError.message = some fromActions ∧
        a.sources.join? SourceError.message = some fromSources ∧
        os = fromActions ++ fromSources) ∧
      ((∀ c ∈ a.actions.calls, c.effect.ending.isReturned) →
        (∀ c ∈ a.sources.calls, c.effect.ending.isReturned) →
        os.map (·.module) = actionNames.filter engine.actions.contains ++
          sourceNames.filter engine.sources.contains)) ∧
    (∀ (engine' : Engine) (resolver' : Resolver) (conduct' : Conduct)
      (actionNames' sourceNames' : List String) (queue' : Queue) (a' : Activation),
      (start actionNames' sourceNames' queue').Leads engine' resolver' conduct' a' →
        SetupBatch.Independent (conduct.actions engine resolver)
          (conduct'.actions engine' resolver') ActionError.message a.actions a'.actions ∧
        SetupBatch.Independent (conduct.sources engine resolver)
          (conduct'.sources engine' resolver') SourceError.message a.sources a'.sources) ∧
    (queue.Usable →
      (∀ i t, a.actions.tasks[i]? = some t →
        (∀ config, ∃ effect, conduct.action t.module config effect) →
        ∃ c call, a.Leads engine resolver conduct c ∧
          SetupBatch.Only i t (.ended call) a.actions c.actions ∧ c.sources = a.sources) ∧
      ∀ i t, a.sources.tasks[i]? = some t →
        (∀ config, ∃ effect, conduct.source t.module config effect) →
        ∃ c call, a.Leads engine resolver conduct c ∧
          SetupBatch.Only i t (.ended call) a.sources c.sources ∧ c.actions = a.actions) := by
  obtain ⟨hsound, husable⟩ := ha.sound
  have hactions := hsound.actions.accounted ActionError.message
  have hsources := hsound.sources.accounted SourceError.message
  refine ⟨hactions, hsources, fun os hos => ⟨join?_eq_some.1 hos, fun hreturned hreturned' => ?_⟩,
    fun _ _ _ _ _ _ _ ha' => ?_, fun hq => ⟨fun i t ht hmay => ?_, fun i t ht hmay => ?_⟩⟩
  · obtain ⟨fromActions, fromSources, hjoin, hjoin', rfl⟩ := join?_eq_some.1 hos
    rw [List.map_append, (hactions.told _ hjoin).modules hreturned,
      (hsources.told _ hjoin').modules hreturned']
    rfl
  · obtain ⟨hsound', -⟩ := ha'.sound
    exact ⟨hsound.actions.independent hsound'.actions _,
      hsound.sources.independent hsound'.sources _⟩
  · obtain ⟨actions, q, call, hruns, -, honly⟩ := SetupBatch.exists_ended ht
      (hsound.actions.tasks t (List.mem_of_getElem? ht)) (husable hq) hmay
    exact ⟨_, call, leads_of_actions hruns, honly, rfl⟩
  · obtain ⟨sources, q, call, hruns, -, honly⟩ := SetupBatch.exists_ended ht
      (hsound.sources.tasks t (List.mem_of_getElem? ht)) (husable hq) hmay
    have hnames : a.actions.names = [] := by
      by_contra hne
      rw [hsound.order hne] at ht
      cases ht
    exact ⟨_, call, leads_of_sources hnames hruns, honly, rfl⟩

/-- **Modules that are set up at the same time** come to the same as one after the
    other, whatever the order. -/
theorem join_eq_startModules {now : String} {isOpen : Bool} {os : List SetupOutcome}
    (ha : (start actionNames sourceNames queue).Leads engine resolver (.proper now isOpen) a)
    (hos : a.join? = some os) :
    os = (engine.startModules resolver now isOpen actionNames sourceNames).1 ∧
      a.sources.sent.Perm (engine.startModules resolver now isOpen actionNames sourceNames).2 := by
  obtain ⟨hsound, -⟩ := ha.sound
  obtain ⟨fromActions, fromSources, hactions, hsources, rfl⟩ := join?_eq_some.1 hos
  obtain ⟨hover, rfl⟩ := SetupBatch.join?_eq_some.1 hactions
  obtain ⟨hover', rfl⟩ := SetupBatch.join?_eq_some.1 hsources
  obtain ⟨houtcomes, -⟩ := hsound.actions.outcomes_eq ActionError.message
    (fun m config => ([], m.setup config)) (fun _ _ _ h => h) hover
  obtain ⟨houtcomes', hsent⟩ := hsound.sources.outcomes_eq SourceError.message
    (fun m config => (m.setup now config).onto isOpen) (fun _ _ _ h => h) hover'
  constructor
  · rw [houtcomes, houtcomes']
    simp only [Engine.startModules, Setup.setUpActions, Setup.setUpSources, List.map_map]
    rfl
  · simp only [Engine.startModules, Setup.setUpSources, List.flatMap_map]
    exact hsent

/-- Two listings of `dummy`, a module that is not there, and `onetime`. -/
theorem modules_accounted_dummies :
    let engine := Engine.new (Builtin.addActions .actions) (Builtin.addSources .sources)
      fun _ _ _ => .ok .stop
    ∃ a os, (start ["dummy", "ghost", "dummy"] ["onetime"] ⟨1, [], 1⟩).Leads engine .empty
        (.proper "now" true) a ∧ a.join? = some os ∧
      os = [⟨"dummy", none⟩, ⟨"dummy", none⟩, ⟨"onetime", none⟩] ∧
      a.actions.skipped = ["ghost"] ∧ ∀ c ∈ a.sources.calls, c.Configured .empty := by
  intro engine
  have hresponds : (Conduct.proper "now" true).Responds :=
    ⟨fun _ _ => ⟨_, rfl⟩, fun _ _ => ⟨_, rfl⟩⟩
  have hstart : (start ["dummy", "ghost", "dummy"] ["onetime"] ⟨1, [], 1⟩).Leads engine .empty
      (.proper "now" true) (start ["dummy", "ghost", "dummy"] ["onetime"] ⟨1, [], 1⟩) := .refl
  obtain ⟨a, os, ha, hos⟩ := hstart.exists_join ⟨Nat.one_pos, Nat.one_pos⟩ hresponds
  obtain ⟨hactions, hsources, hjoin, -, -⟩ := modules_accounted ha
  obtain ⟨⟨fromActions, fromSources, hover, -, -⟩, -⟩ := hjoin os hos
  have hnames : a.actions.names = [] :=
    (SetupBatch.isOver_iff.1 (SetupBatch.join?_eq_some.1 hover).1).1
  refine ⟨a, os, ha, hos, ?_, ?_, hsources.configured⟩
  · rw [(join_eq_startModules ha hos).1]
    decide +kernel
  · rw [hactions.skipped hnames]
    decide +kernel

end Activation

end Reactor
