/-
  When a pipeline ends.

  Nothing bounds the steps of a pipeline: it goes on as long as its scripts do.
  What it does next is decided by the step that was dispatched last and its input.

  * `dispatches` are the steps that were dispatched, with their inputs;
  * `Act.Follows.unique`: an act has one successor; `Linked.shift`: what has been
    done once is done again in the same way;
  * `Linked.nodup_dispatches`: a run that has ended has dispatched no step twice
    on the same input;
  * `NeverBack`: no script leads back to a step that was dispatched before it;
    `exists_isEnded`: such a run ends, with no more dispatches than steps;
  * `ends_unless_repeated` is all of this about `Pipeline.run`.
-/
import Mathlib.Data.List.Nodup
import Mathlib.Data.List.Perm.Subperm
import Reactor.Proofs.Engine.Trace
import Reactor.Proofs.Fields

namespace Reactor

namespace Act

/-- The step of a dispatch, with its input. -/
def dispatch? : Act → Option (String × Payload)
  | dispatched step _ _ input _ => some (step, input)
  | evaluated .. => none

theorem eq_of_dispatch? {a : Act} {x : String × Payload} (h : a.dispatch? = some x) :
    ∃ module action r, a = .dispatched x.1 module action x.2 r := by
  cases a with
  | evaluated => cases h
  | dispatched step module action input r => cases h; exact ⟨module, action, r, rfl⟩

/-- **An act has one successor**, as an evaluation and an action give one answer. -/
theorem Follows.unique {w : Surroundings} {event : Event} {reaction : Reaction} {a b c : Act}
    (hb : a.Follows w ActionModule.answers event reaction b)
    (hc : a.Follows w ActionModule.answers event reaction c) : b = c := by
  cases hb with
  | dispatch hs hm hr =>
    cases hc with
    | dispatch hs' hm' hr' =>
      cases hs.symm.trans hs'
      cases hm.symm.trans hm'
      cases hr.trans hr'.symm
      rfl
  | evaluate hs =>
    cases hc with
    | evaluate hs' => cases hs.symm.trans hs'; rfl

end Act

namespace Pipeline

/-- The steps that were dispatched, with their inputs, in order. -/
def dispatches (acts : List Act) : List (String × Payload) := acts.filterMap Act.dispatch?

variable {w : Surroundings} {event : Event} {reaction : Reaction} {acts : List Act}

/-! ## Dispatches -/

/-- A dispatch comes after a script that goes on with its step, whose module it
    runs. -/
theorem Linked.before_dispatch {answers : Answers} (h : Linked w answers event reaction acts)
    {i : Nat} {n module action : String} {d : Payload} {r : Except ActionError Payload}
    (hi : acts[i]? = some (.dispatched n module action d r)) :
    (∃ k data prior script, i = k + 1 ∧
        acts[k]? = some (.evaluated data prior script (.ok (.continue_ n d)))) ∧
      ∃ s m, reaction.step? n = some s ∧ w.actions.lookup s.module = .ok m ∧
        module = s.module ∧ action = s.action ∧ answers m s.action d r := by
  match i with
  | 0 => cases h.entry hi
  | i + 1 =>
    obtain ⟨hlt, -⟩ := List.getElem?_eq_some_iff.1 hi
    have ha := List.getElem?_eq_getElem (Nat.lt_of_succ_lt hlt)
    generalize acts[i] = a at ha
    cases h.follows ha hi with
    | dispatch hs hm hr => exact ⟨⟨i, _, _, _, rfl, ha⟩, _, _, hs, hm, rfl, rfl, hr⟩

/-- A decision is what the script engine has made of the script. -/
theorem Linked.eq_evaluate {answers : Answers} (h : Linked w answers event reaction acts) {i : Nat}
    {data : Payload} {prior : Option Payload} {script : String} {d : Except ScriptError Decision}
    (hi : acts[i]? = some (.evaluated data prior script d)) : d = w.evaluate data prior script := by
  match i with
  | 0 => cases h.entry hi; rfl
  | i + 1 =>
    obtain ⟨hlt, -⟩ := List.getElem?_eq_some_iff.1 hi
    have ha := List.getElem?_eq_getElem (Nat.lt_of_succ_lt hlt)
    generalize acts[i] = a at ha
    cases h.follows ha hi with
    | evaluate => rfl

/-- A step gives the same output to the same input. -/
theorem Linked.eq_of_dispatch? (h : Linked w ActionModule.answers event reaction acts) {i j : Nat}
    {a b : Act} {x : String × Payload} (hi : acts[i]? = some a) (hj : acts[j]? = some b)
    (ha : a.dispatch? = some x) (hb : b.dispatch? = some x) : a = b := by
  obtain ⟨module, action, r, rfl⟩ := Act.eq_of_dispatch? ha
  obtain ⟨module', action', r', rfl⟩ := Act.eq_of_dispatch? hb
  obtain ⟨-, s, m, hs, hm, rfl, rfl, rfl⟩ := h.before_dispatch hi
  obtain ⟨-, s', m', hs', hm', rfl, rfl, rfl⟩ := h.before_dispatch hj
  cases hs.symm.trans hs'
  cases hm.symm.trans hm'
  rfl

theorem mem_steps_of_mem_dispatches (h : Linked w ActionModule.answers event reaction acts)
    {x : String × Payload} (hx : x ∈ dispatches acts) : x.1 ∈ reaction.steps.map (·.1) := by
  obtain ⟨a, ha, hdispatch⟩ := List.mem_filterMap.1 hx
  obtain ⟨module, action, r, rfl⟩ := Act.eq_of_dispatch? hdispatch
  obtain ⟨i, hi⟩ := List.mem_iff_getElem?.1 ha
  obtain ⟨-, s, m, hs, -⟩ := h.before_dispatch hi
  exact List.mem_map.2 ⟨_, Fields.mem_of_get? hs, rfl⟩

/-- Dispatches that differ at all places differ. -/
theorem pairwise_dispatches {R : String × Payload → String × Payload → Prop}
    (h : ∀ (i j : Nat) (a b : Act) x y, i < j → acts[i]? = some a → acts[j]? = some b →
      a.dispatch? = some x → b.dispatch? = some y → R x y) : (dispatches acts).Pairwise R := by
  refine List.pairwise_filterMap.2 (List.pairwise_iff_getElem.2 fun i j hi hj hlt x hx y hy => ?_)
  exact h i j _ _ x y hlt (List.getElem?_eq_getElem hi) (List.getElem?_eq_getElem hj) hx hy

/-! ## Repetitions -/

/-- **What has been done once is done again in the same way.** -/
theorem Linked.shift (h : Linked w ActionModule.answers event reaction acts) {i j : Nat} {a : Act}
    (hlt : i < j) (hi : acts[i]? = some a) (hj : acts[j]? = some a) :
    ∀ {k : Nat} {b : Act}, acts[j + k]? = some b → acts[i + k]? = some b
  | 0, b, hb => by
    cases hj.symm.trans hb
    exact hi
  | k + 1, b, hb => by
    obtain ⟨hlen, -⟩ := List.getElem?_eq_some_iff.1 hb
    have hc := List.getElem?_eq_getElem (show j + k < acts.length by omega)
    have hb' := List.getElem?_eq_getElem (show i + k + 1 < acts.length by omega)
    have hnext := h.follows (h.shift hlt hi hj hc) hb'
    rw [(h.follows hc hb).unique hnext]
    exact hb'

/-- **A run that has ended has dispatched no step twice on the same input**: after
    the first time it would have gone on as after the second, past its end. -/
theorem Linked.nodup_dispatches (h : Linked w ActionModule.answers event reaction acts) {z : Act}
    (hz : acts.getLast? = some z)
    (hlast : ∀ b, ¬z.Follows w ActionModule.answers event reaction b) : (dispatches acts).Nodup := by
  refine pairwise_dispatches fun i j a b x y hlt hi hj ha hb => ?_
  rintro rfl
  cases h.eq_of_dispatch? hi hj ha hb
  obtain ⟨hlen, -⟩ := List.getElem?_eq_some_iff.1 hj
  have hend : acts[j + (acts.length - 1 - j)]? = some z := by
    rw [show j + (acts.length - 1 - j) = acts.length - 1 by omega, ← List.getLast?_eq_getElem?]
    exact hz
  have hearlier := h.shift hlt hi hj hend
  have hnext := List.getElem?_eq_getElem (show i + (acts.length - 1 - j) + 1 < acts.length by omega)
  exact hlast _ (h.follows hearlier hnext)

/-! ## Runs that never lead back -/

/-- No script goes on with a step that was dispatched before it. -/
def NeverBack (acts : List Act) : Prop :=
  ∀ (i j : Nat) n module action d r data prior script n' d', i < j →
    acts[i]? = some (.dispatched n module action d r) →
    acts[j]? = some (.evaluated data prior script (.ok (.continue_ n' d'))) → n' ≠ n

/-- Then no step is dispatched twice. -/
theorem NeverBack.nodup (hback : NeverBack acts)
    (h : Linked w ActionModule.answers event reaction acts) :
    ((dispatches acts).map (·.1)).Nodup := by
  refine List.pairwise_map.2 (pairwise_dispatches fun i j a b x y hlt hi hj ha hb => ?_)
  obtain ⟨module, action, r, rfl⟩ := Act.eq_of_dispatch? ha
  obtain ⟨module', action', r', rfl⟩ := Act.eq_of_dispatch? hb
  obtain ⟨⟨k, data, prior, script, rfl, hk⟩, -⟩ := h.before_dispatch hj
  have hne : i ≠ k := by
    rintro rfl
    cases hi.symm.trans hk
  exact (hback i k _ _ _ _ _ _ _ _ _ _ (by omega) hi hk).symm

/-- Steps that are dispatched once are no more than the reaction has. -/
theorem length_dispatches_le (h : Linked w ActionModule.answers event reaction acts)
    (hn : ((dispatches acts).map (·.1)).Nodup) : (dispatches acts).length ≤ reaction.steps.length := by
  have hsub : (dispatches acts).map (·.1) ⊆ reaction.steps.map (·.1) := by
    intro n hmem
    obtain ⟨x, hx, rfl⟩ := List.mem_map.1 hmem
    exact mem_steps_of_mem_dispatches h hx
  have hle := (hn.subperm hsub).length_le
  rwa [List.length_map, List.length_map] at hle

/-- Every second act is a dispatch. -/
theorem length_dispatches : ∀ {acts : List Act},
    (∀ i a, acts[i]? = some a → (a.isEvaluation = true ↔ i % 2 = 0)) →
    (dispatches acts).length = acts.length / 2
  | [], _ => rfl
  | [a], h => by
    cases a with
    | evaluated => exact (Nat.div_eq_of_lt Nat.one_lt_two).symm
    | dispatched => exact absurd ((h 0 _ rfl).2 rfl) nofun
  | a :: b :: acts, h => by
    have hrest : (dispatches acts).length = acts.length / 2 := length_dispatches fun i c hc =>
      (h (i + 2) c hc).trans (by rw [Nat.add_mod_right])
    cases a with
    | dispatched => exact absurd ((h 0 _ rfl).2 rfl) nofun
    | evaluated =>
      cases b with
      | evaluated => exact absurd ((h 1 _ rfl).1 rfl) (by decide)
      | dispatched =>
        rw [show dispatches (_ :: _ :: acts) = _ :: dispatches acts from rfl, List.length_cons,
          List.length_cons, List.length_cons, hrest]
        omega

/-! ## Runs of any length -/

theorem tracked_run (w : Surroundings) (event : Event) (reaction : Reaction) (fuel : Nat) :
    Tracked w ActionModule.answers event reaction ((new event reaction).run w fuel).2
      ((new event reaction).run w fuel).1 :=
  Tracked.runs (runs_run (w := w) fuel (.refl (p := new event reaction)))

theorem run_of_isEnded {p : Pipeline} (h : p.isEnded = true) : ∀ fuel, p.run w fuel = (p, [])
  | 0 => rfl
  | fuel + 1 => by rw [run, if_pos h]

/-- A longer run goes on from a shorter one. -/
theorem run_append (n : Nat) : ∀ (m : Nat) (p : Pipeline), p.run w (m + n) =
    (((p.run w m).1.run w n).1, (p.run w m).2 ++ ((p.run w m).1.run w n).2)
  | 0, p => by rw [Nat.zero_add]; rfl
  | m + 1, p => by
    cases hp : p.isEnded with
    | true => rw [run_of_isEnded hp, run_of_isEnded hp, run_of_isEnded hp]; rfl
    | false =>
      rw [show m + 1 + n = m + n + 1 by omega, run, run, if_neg (by simp [hp]),
        if_neg (by simp [hp])]
      dsimp only
      rw [run_append n m, List.append_assoc]

/-- Once a run has ended, nothing is dispatched twice on the same input, however
    long it is given. -/
theorem nodup_of_isEnded {n : Nat} (h : ((new event reaction).run w n).1.isEnded = true)
    (fuel : Nat) : (dispatches ((new event reaction).run w fuel).2).Nodup := by
  have hend : (dispatches ((new event reaction).run w n).2).Nodup := by
    obtain ⟨-, -, -, hlinked, hstage⟩ := tracked_run w event reaction n
    unfold isEnded at h
    split at h
    · rename_i e he
      rw [he] at hstage
      obtain ⟨z, hz, hlast⟩ := hstage.last
      exact hlinked.nodup_dispatches hz (hlast _)
    · cases h
  by_cases hle : fuel ≤ n
  · obtain ⟨m, rfl⟩ := Nat.exists_eq_add_of_le hle
    rw [run_append, dispatches, List.filterMap_append] at hend
    exact hend.of_append_left
  · obtain ⟨m, rfl⟩ := Nat.exists_eq_add_of_le (Nat.le_of_not_le hle)
    rwa [run_append, run_of_isEnded h, List.append_nil]

/-- A pipeline that has not ended is in no terminal state. -/
theorem Stage.not_terminal {state : State} {phase : Phase}
    (h : Stage w event reaction acts state phase) (hphase : ∀ e, phase ≠ .ended e) :
    state.isTerminal = false := by
  cases h with
  | start | entry | dispatch | followUp => rfl
  | notLaunched | finished | stopped | failed => exact absurd rfl (hphase _)

theorem not_terminal_of_not_isEnded {fuel : Nat}
    (h : ((new event reaction).run w fuel).1.isEnded = false) :
    ((new event reaction).run w fuel).1.state.isTerminal = false ∧
      ((new event reaction).run w fuel).1.outcome? = none := by
  have hstage := (tracked_run w event reaction fuel).stage
  generalize (new event reaction).run w fuel = q at h hstage
  have hphase : ∀ e, q.1.phase ≠ .ended e := fun e he => by rw [isEnded, he] at h; cases h
  refine ⟨hstage.not_terminal hphase, ?_⟩
  unfold outcome?
  split
  · exact absurd ‹_› (hphase _)
  · rfl

/-! ## How long a run is -/

theorem enter_phase (p : Pipeline) (target : State) (phase : Phase) :
    (p.enter target phase).phase = phase ∨ ∃ e, (p.enter target phase).phase = .ended e := by
  unfold enter
  split
  · exact Or.inl rfl
  · exact Or.inr ⟨_, rfl⟩

/-- A pipeline starts once. -/
theorem step_phase_ne_start (p : Pipeline) : (p.step w).1.phase ≠ .start := by
  have henter {p : Pipeline} {target : State} {phase : Phase} (h : phase ≠ .start) :
      (p.enter target phase).phase ≠ .start := by
    rcases enter_phase p target phase with he | ⟨e, he⟩
    · rwa [he]
    · rw [he]
      exact nofun
  unfold step
  split
  · exact henter nofun
  · unfold onDecision
    dsimp only
    split
    · exact nofun
    · exact henter nofun
    · unfold goTo
      split
      · exact nofun
      · split <;> exact nofun
  · unfold onOutput
    dsimp only
    split
    · exact nofun
    · split
      · split
        · exact henter nofun
        · exact nofun
      · exact nofun
  · rename_i h
    rw [h]
    exact nofun

/-- A pipeline that has started and goes on does one thing at each step. -/
theorem length_run : ∀ {fuel : Nat} {p : Pipeline}, p.phase ≠ .start →
    (p.run w fuel).1.isEnded = false → (p.run w fuel).2.length = fuel
  | 0, p, _, _ => rfl
  | fuel + 1, p, hp, h => by
    cases hended : p.isEnded with
    | true => rw [run_of_isEnded hended, hended] at h; cases h
    | false =>
      rw [run, if_neg (by simp [hended])] at h ⊢
      have hact : (p.step w).2.toList.length = 1 := by
        unfold step
        split
        · exact absurd ‹_› hp
        · rfl
        · rfl
        · rename_i he
          rw [isEnded, he] at hended
          cases hended
      rw [List.length_append, hact, length_run (step_phase_ne_start p) h, Nat.add_comm]

/-- **A run whose scripts never lead back ends**, with no more dispatches than the
    reaction has steps. -/
theorem exists_isEnded (h : ∀ fuel, NeverBack ((new event reaction).run w fuel).2) :
    ∃ fuel, ((new event reaction).run w fuel).1.isEnded = true ∧
      (dispatches ((new event reaction).run w fuel).2).length ≤ reaction.steps.length := by
  -- one step to start, and two acts for each dispatch
  let fuel := 2 * reaction.steps.length + 2 + 1
  have hlinked := (tracked_run w event reaction fuel).linked
  have hle := length_dispatches_le hlinked ((h fuel).nodup hlinked)
  refine ⟨fuel, ?_, hle⟩
  by_contra hgoes
  rw [Bool.not_eq_true] at hgoes
  have hlength := length_dispatches fun i a => hlinked.alternate (i := i) (a := a)
  have hrun : (new event reaction).run w fuel =
      (new event reaction).begin.run w (2 * reaction.steps.length + 2) := rfl
  have hbegun : (new event reaction).begin.phase ≠ .start :=
    step_phase_ne_start (w := w) (new event reaction)
  rw [hrun] at hgoes hlength hle
  have hsteps := length_run hbegun hgoes
  omega

/-- **When a pipeline ends.**  A run that dispatches a step twice on the same input
    never ends, so the dispatches of a run that ends are distinct.  Every step that
    is dispatched is one of the reaction's: with more dispatches than steps, some
    step was dispatched again.  If no script leads back to a step that was dispatched
    before, the run ends, with no more dispatches than steps. -/
theorem ends_unless_repeated (w : Surroundings) (event : Event) (reaction : Reaction) :
    let run (fuel : Nat) := Pipeline.run w fuel (new event reaction)
    (∀ fuel, ¬(dispatches (run fuel).2).Nodup → ∀ n, (run n).1.isEnded = false ∧
        (run n).1.state.isTerminal = false ∧ (run n).1.outcome? = none) ∧
      (∀ fuel, (run fuel).1.isEnded = true → (dispatches (run fuel).2).Nodup) ∧
      (∀ fuel, ∀ x ∈ dispatches (run fuel).2, x.1 ∈ reaction.steps.map (·.1)) ∧
      (∀ fuel, reaction.steps.length < (dispatches (run fuel).2).length →
        ¬((dispatches (run fuel).2).map (·.1)).Nodup) ∧
      ((∀ fuel, NeverBack (run fuel).2) → ∃ fuel, (run fuel).1.isEnded = true ∧
        (dispatches (run fuel).2).length ≤ reaction.steps.length) := by
  intro run
  refine ⟨fun fuel hrepeated n => ?_, fun fuel h => nodup_of_isEnded h fuel, fun fuel x => ?_,
    fun fuel hlt hn => ?_, exists_isEnded⟩
  · have hgoes : (run n).1.isEnded = false := by
      by_contra hended
      exact hrepeated (nodup_of_isEnded (by simpa using hended) fuel)
    exact ⟨hgoes, not_terminal_of_not_isEnded hgoes⟩
  · exact mem_steps_of_mem_dispatches (tracked_run w event reaction fuel).linked
  · have hle := length_dispatches_le (tracked_run w event reaction fuel).linked hn
    exact absurd hlt (Nat.not_lt.2 hle)

/-- A bell whose script always asks for the same ring never ends; one that is rung
    and then answered ends after two dispatches. -/
theorem ends_unless_repeated_bell :
    let ring : ActionModule := ⟨[], fun _ => .ok (), fun _ input => .ok input⟩
    let evaluate : Evaluator := fun _ _ script => .ok (.continue_ script [])
    let w : Surroundings := ⟨evaluate, (Registry.actions.register "chime" ring).2⟩
    let again : Reaction := ⟨"bell", "door", "ring", [("ring", ⟨"ring", "chime", "ring", "ring"⟩)]⟩
    let answered : Reaction := ⟨"bell", "door", "ring",
      [("open", ⟨"open", "chime", "open", ""⟩), ("ring", ⟨"ring", "chime", "ring", "open"⟩)]⟩
    (∀ n, ((new ⟨"door", []⟩ again).run w n).1.isEnded = false) ∧
      ((new ⟨"door", []⟩ answered).run w 5).1.isEnded = true ∧
      (dispatches ((new ⟨"door", []⟩ answered).run w 5).2).Nodup := by
  intro ring evaluate w again answered
  have hagain : dispatches ((new ⟨"door", []⟩ again).run w 5).2 = [("ring", []), ("ring", [])] := rfl
  have hrepeated : ¬(dispatches ((new ⟨"door", []⟩ again).run w 5).2).Nodup := by
    rw [hagain]
    simp
  have hended : ((new ⟨"door", []⟩ answered).run w 5).1.isEnded = true := rfl
  exact ⟨fun n => ((ends_unless_repeated w ⟨"door", []⟩ again).1 5 hrepeated n).1, hended,
    (ends_unless_repeated w ⟨"door", []⟩ answered).2.1 5 hended⟩

end Pipeline

end Reactor
