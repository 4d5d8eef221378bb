/-
  Pipelines do not disturb each other.

  * `Alone` says what comes of a reaction to an event that runs by itself;
  * `Launched.IsRunOf`: a launched pipeline is as far as it would be by itself
    after some steps of its own; `RunsAt.step`: whatever else happens;
  * `Serves` says what a dispatch that has looked up some reactions has launched
    for them, and `Serves.step`: each step keeps it so;
  * `Disjoint`: each pipeline belongs to one dispatch;
  * `dispatch_isolated`: what a dispatch launches, and what comes of it.
-/
import Mathlib.Data.List.Forall2
import Mathlib.Data.List.Perm.Basic
import Reactor.Proofs.Engine.Trace
import Reactor.Proofs.Engine.Traffic
import Reactor.Proofs.Store

namespace Reactor

namespace Pipeline

variable {w : Surroundings} {p : Pipeline}

theorem step_of_ended (h : p.isEnded = true) : (p.step w).1 = p := by
  unfold isEnded at h
  unfold step
  split at h
  · rename_i e he; rw [he]
  · cases h

theorem run_of_ended (h : p.isEnded = true) (n : Nat) : (p.run w n).1 = p := by
  cases n with
  | zero => rfl
  | succ n => rw [run, if_pos h]

theorem run_step (h : p.isEnded = false) (n : Nat) :
    (p.run w (n + 1)).1 = ((p.step w).1.run w n).1 := by
  rw [run, if_neg (by simp [h])]

/-- One more step at the end of a run. -/
theorem run_succ (n : Nat) : ∀ p : Pipeline, (p.run w (n + 1)).1 = ((p.run w n).1.step w).1 := by
  induction n with
  | zero =>
    intro p
    cases h : p.isEnded with
    | true => rw [run_of_ended h, run_of_ended h, step_of_ended h]
    | false => rw [run_step h]; rfl
  | succ n ih =>
    intro p
    cases h : p.isEnded with
    | true => rw [run_of_ended h, run_of_ended h, step_of_ended h]
    | false => rw [run_step h, run_step h, ih]

theorem isEnded_iff : p.isEnded = true ↔ ∃ o, p.outcome? = some o := by
  unfold isEnded outcome?
  cases p.phase <;> simp

/-- A run that has ended stays as it is. -/
theorem run_add (n : Nat) (h : (p.run w n).1.isEnded = true) :
    ∀ k, (p.run w (n + k)).1 = (p.run w n).1
  | 0 => rfl
  | k + 1 => by rw [← Nat.add_assoc, run_succ, run_add n h k, step_of_ended h]

/-- What comes of a reaction to an event that runs by itself. -/
def Alone (w : Surroundings) (e : Event) (r : Reaction) (o : Outcome) : Prop :=
  ∃ n, ((new e r).run w n).1.outcome? = some o

theorem Alone.unique {e : Event} {r : Reaction} {o o' : Outcome} (h : Alone w e r o)
    (h' : Alone w e r o') : o = o' := by
  obtain ⟨n, hn⟩ := h
  obtain ⟨m, hm⟩ := h'
  have hended := isEnded_iff.2 ⟨o, hn⟩
  have hended' := isEnded_iff.2 ⟨o', hm⟩
  rcases Nat.le_total n m with hle | hle
  · obtain ⟨k, rfl⟩ := Nat.exists_eq_add_of_le hle
    rw [run_add n hended k, hn] at hm
    exact Option.some.inj hm
  · obtain ⟨k, rfl⟩ := Nat.exists_eq_add_of_le hle
    rw [run_add m hended' k, hm] at hn
    exact (Option.some.inj hn).symm

/-- The outcome of a run, told from all others. -/
theorem alone_iff {e : Event} {r : Reaction} {n : Nat} {o : Outcome}
    (h : ((new e r).run w n).1.outcome? = some o) (o' : Outcome) : Alone w e r o' ↔ o' = o :=
  ⟨fun h' => h'.unique ⟨n, h⟩, fun h' => h' ▸ ⟨n, h⟩⟩

end Pipeline

open Pipeline (Alone)

/-- A launched pipeline is as far as a reaction to an event is by itself after
    some steps, and its outcome is what has come of it. -/
def Launched.IsRunOf (w : Surroundings) (e : Event) (r : Reaction) (l : Launched) : Prop :=
  (∃ n, l.pipeline = ((Pipeline.new e r).run w n).1) ∧
    ∀ o, l.outcome? = some o → l.pipeline.outcome? = some o

theorem Launched.IsRunOf.same {w : Surroundings} {e : Event} {r : Reaction} {l : Launched}
    (h : l.IsRunOf w e r) : l.pipeline.event = e ∧ l.pipeline.reaction = r := by
  obtain ⟨⟨n, hn⟩, -⟩ := h
  have htracked := Pipeline.Tracked.runs (Pipeline.runs_run (w := w) n (.refl (p := .new e r)))
  rw [hn]
  exact ⟨htracked.sameEvent, htracked.sameReaction⟩

theorem Launched.IsRunOf.alone_iff {w : Surroundings} {e : Event} {r : Reaction} {l : Launched}
    (h : l.IsRunOf w e r) {o : Outcome} (ho : l.outcome? = some o) (o' : Outcome) :
    Alone w e r o' ↔ o' = o := by
  obtain ⟨⟨n, hn⟩, hsame⟩ := h
  exact Pipeline.alone_iff (hn ▸ hsame o ho) o'

/-- The pipelines that a dispatch has launched so far. -/
def DispatchPhase.handles : DispatchPhase → List Nat
  | launching _ handles => handles
  | ended o => o.handles
  | _ => []

namespace Traffic

variable {changes : Store → Store → Prop} {w : Surroundings} {t u : Traffic}

/-- What pipelines run in stays as it is. -/
theorem Leads.surroundings (h : Leads changes t u) :
    u.engine.surroundings = t.engine.surroundings :=
  h.keeps (P := fun u => u.engine.surroundings = t.engine.surroundings)
    (fun hu hs => by cases hs <;> exact hu) rfl

/-! ## Pipelines -/

/-- A pipeline runs a reaction to an event. -/
def RunsAt (t : Traffic) (w : Surroundings) (e : Event) (r : Reaction) (h : Nat) : Prop :=
  ∃ l, t.pipelines[h]? = some l ∧ l.IsRunOf w e r

theorem RunsAt.of_eq {e : Event} {r : Reaction} {h : Nat} (hr : t.RunsAt w e r h)
    (hu : u.pipelines = t.pipelines) : u.RunsAt w e r h := by
  rwa [RunsAt, hu]

/-- A pipeline still runs its reaction when one is replaced by its like. -/
theorem RunsAt.set {e : Event} {r : Reaction} {h k : Nat} {l : Launched}
    (hr : t.RunsAt w e r h) (hl : t.pipelines[k]? = some l) (l' : Launched)
    (hlike : l.IsRunOf w e r → l'.IsRunOf w e r) (hu : u.pipelines = t.pipelines.set k l') :
    u.RunsAt w e r h := by
  obtain ⟨l₀, hl₀, hrun⟩ := hr
  by_cases hk : k = h
  · subst hk
    rw [hl] at hl₀
    cases hl₀
    exact ⟨l', by rw [hu, List.getElem?_set_self (List.getElem?_eq_some_iff.1 hl).1], hlike hrun⟩
  · exact ⟨l₀, by rw [hu, List.getElem?_set_ne hk, hl₀], hrun⟩

theorem RunsAt.lt {e : Event} {r : Reaction} {h : Nat} (hr : t.RunsAt w e r h) :
    h < t.pipelines.length := by
  obtain ⟨l, hl, -⟩ := hr
  exact (List.getElem?_eq_some_iff.1 hl).1

theorem runsAt_spawn (t : Traffic) (w : Surroundings) (e : Event) (r : Reaction) :
    (t.spawn (.new e r)).RunsAt w e r t.pipelines.length :=
  ⟨⟨.new e r, none⟩, List.getElem?_concat_length, ⟨0, rfl⟩, nofun⟩

/-- **A pipeline goes on as by itself**, whatever else happens. -/
theorem RunsAt.step {e : Event} {r : Reaction} {h : Nat} (hw : t.engine.surroundings = w)
    (hr : t.RunsAt w e r h) (hs : Step changes t u) : u.RunsAt w e r h := by
  cases hs with
  | spawn hd =>
    obtain ⟨l, hl, hrun⟩ := hr
    exact ⟨l, (List.getElem?_append_left (List.getElem?_eq_some_iff.1 hl).1).trans hl, hrun⟩
  | advance hl hrunning =>
    refine hr.set hl _ (fun hrun => ?_) rfl
    obtain ⟨⟨n, hn⟩, hsame⟩ := hrun
    refine ⟨⟨n + 1, ?_⟩, fun o ho => ?_⟩
    · rw [Pipeline.run_succ, ← hn, hw]
    · rw [Pipeline.isEnded_iff.2 ⟨o, hsame o ho⟩] at hrunning
      cases hrunning
  | @finish k p o hl ho =>
    refine hr.set hl ⟨p, some o⟩ (fun hrun => ⟨hrun.1, fun o' ho' => ?_⟩) rfl
    cases ho'
    exact ho
  | _ => exact hr.of_eq rfl

theorem RunsAt.leads {e : Event} {r : Reaction} {h : Nat} (hr : t.RunsAt w e r h)
    (hw : t.engine.surroundings = w) (hu : Leads changes t u) : u.RunsAt w e r h := by
  induction hu with
  | refl => exact hr
  | move m hu ha hm ih => exact ih.step (hu.surroundings.trans hw) (step_of_move? ha hm)

/-- An outcome stays. -/
theorem outcome?_step {h : Nat} {o : Outcome} (ho : t.outcome? h = some o)
    (hs : Step changes t u) : u.outcome? h = some o := by
  obtain ⟨l, hl, hlo⟩ := Option.bind_eq_some_iff.1 ho
  have hlt := (List.getElem?_eq_some_iff.1 hl).1
  have hset {k : Nat} {l₀ l₁ : Launched} (hk : t.pipelines[k]? = some l₀)
      (hkeeps : l₀.outcome? = some o → l₁.outcome? = some o) :
      (t.pipelines.set k l₁)[h]?.bind (·.outcome?) = some o := by
    by_cases hkh : k = h
    · subst hkh
      rw [hk] at hl
      cases hl
      rw [List.getElem?_set_self hlt]
      exact hkeeps hlo
    · rw [List.getElem?_set_ne hkh, hl]
      exact hlo
  cases hs with
  | spawn hd =>
    change (t.pipelines ++ [_])[h]?.bind (·.outcome?) = some o
    rw [List.getElem?_append_left hlt, hl]
    exact hlo
  | advance hk => exact hset hk id
  | finish hk => exact hset hk nofun
  | _ => exact ho

/-! ## Dispatches -/

/-- A dispatch that goes on is the one looked at, or another. -/
theorem getElem?_set_cases {ds : List Dispatch} {i j : Nat} {e e' : Event}
    {phase phase' : DispatchPhase} (hd : ds[j]? = some ⟨e', phase'⟩) (hi : ds[i]? = some ⟨e, phase⟩)
    (next : DispatchPhase) :
    (e' = e ∧ phase' = phase ∧ (ds.set j ⟨e', next⟩)[i]? = some ⟨e', next⟩) ∨
      (ds.set j ⟨e', next⟩)[i]? = some ⟨e, phase⟩ := by
  by_cases hij : j = i
  · subst hij
    rw [hd] at hi
    cases hi
    exact Or.inl ⟨rfl, rfl, List.getElem?_set_self (List.getElem?_eq_some_iff.1 hd).1⟩
  · exact Or.inr ((List.getElem?_set_ne hij).trans hi)

/-- What a dispatch has launched for the reactions that it has found. -/
inductive Serves (t : Traffic) (w : Surroundings) (e : Event) (rs : List Reaction) :
    DispatchPhase → Prop
  | matched : Serves t w e rs (.matched rs)
  | launching {before left : List Reaction} {handles : List Nat} :
      rs ≠ [] → before ++ left = rs → handles.Pairwise (· < ·) →
      List.Forall₂ (t.RunsAt w e) before handles → Serves t w e rs (.launching left handles)
  | unmatched : rs = [] → Serves t w e rs (.ended .unmatched)
  | launched {handles : List Nat} :
      rs ≠ [] → handles.Pairwise (· < ·) → List.Forall₂ (t.RunsAt w e) rs handles →
      Serves t w e rs (.ended (.launched handles))

variable {e : Event} {rs : List Reaction} {phase : DispatchPhase} {i : Nat}

theorem Serves.mono (h : t.Serves w e rs phase)
    (hruns : ∀ {r h}, t.RunsAt w e r h → u.RunsAt w e r h) : u.Serves w e rs phase := by
  cases h with
  | matched => exact .matched
  | launching hne hrs hsorted hall => exact .launching hne hrs hsorted (hall.imp fun _ _ => hruns)
  | unmatched hrs => exact .unmatched hrs
  | launched hne hsorted hall => exact .launched hne hsorted (hall.imp fun _ _ => hruns)

/-- The next pipeline comes last. -/
theorem pairwise_concat_length {before : List Reaction} {handles : List Nat}
    (hsorted : handles.Pairwise (· < ·)) (hall : List.Forall₂ (t.RunsAt w e) before handles) :
    (handles ++ [t.pipelines.length]).Pairwise (· < ·) := by
  refine List.pairwise_append.2 ⟨hsorted, List.pairwise_singleton _ _, fun h hh n hn => ?_⟩
  rw [List.mem_singleton.1 hn]
  obtain ⟨r, -, hr⟩ : ∃ r ∈ before, t.RunsAt w e r h := by
    clear hsorted
    induction hall with
    | nil => cases hh
    | cons hr _ ih =>
      rcases List.mem_cons.1 hh with rfl | hh
      · exact ⟨_, List.mem_cons_self, hr⟩
      · obtain ⟨r, hmem, hr⟩ := ih hh
        exact ⟨r, List.mem_cons_of_mem _ hmem, hr⟩
  exact hr.lt

/-- **A dispatch launches one pipeline for each reaction that it has found**, in
    order, whatever else happens. -/
theorem Serves.step (hw : t.engine.surroundings = w) (hi : t.dispatches[i]? = some ⟨e, phase⟩)
    (h : t.Serves w e rs phase) (hs : Step changes t u) :
    ∃ phase, u.dispatches[i]? = some ⟨e, phase⟩ ∧ u.Serves w e rs phase := by
  have hkept : u.Serves w e rs phase := h.mono fun hr => hr.step hw hs
  have hruns {r : Reaction} {h : Nat} : t.RunsAt w e r h → u.RunsAt w e r h := fun hr => hr.step hw hs
  cases hs with
  | take | hand =>
    exact ⟨phase, (List.getElem?_append_left (List.getElem?_eq_some_iff.1 hi).1).trans hi, hkept⟩
  | receive hd =>
    rcases getElem?_set_cases hd hi .received with ⟨rfl, rfl, -⟩ | hi
    · cases h
    · exact ⟨phase, hi, hkept⟩
  | @look j e' hd =>
    rcases getElem?_set_cases hd hi (.matched (t.engine.store.matchesFor e'.name)) with ⟨rfl, rfl, -⟩ | hi
    · cases h
    · exact ⟨phase, hi, hkept⟩
  | miss hd =>
    rcases getElem?_set_cases hd hi (.ended .unmatched) with ⟨rfl, rfl, hnext⟩ | hi
    · cases h; exact ⟨_, hnext, .unmatched rfl⟩
    · exact ⟨phase, hi, hkept⟩
  | @hit j e' found hne hd =>
    rcases getElem?_set_cases hd hi (.launching found []) with ⟨rfl, rfl, hnext⟩ | hi
    · cases h; exact ⟨_, hnext, .launching hne (List.nil_append _) .nil .nil⟩
    · exact ⟨phase, hi, hkept⟩
  | @spawn j e' r left handles hd =>
    rcases getElem?_set_cases hd hi (.launching left (handles ++ [t.pipelines.length])) with ⟨rfl, rfl, hnext⟩ | hi
    · cases h with
      | launching hne hrs hsorted hall =>
        refine ⟨_, hnext, .launching hne ?_ (pairwise_concat_length hsorted hall)
          (List.rel_append (hall.imp fun _ _ => hruns) (.cons (runsAt_spawn t w e' r) .nil))⟩
        rw [List.append_assoc, List.singleton_append, hrs]
    · exact ⟨phase, hi, hkept⟩
  | @finishDispatch j e' handles hd =>
    rcases getElem?_set_cases hd hi (.ended (.launched handles)) with ⟨rfl, rfl, hnext⟩ | hi
    · cases h with
      | launching hne hrs hsorted hall =>
        rw [List.append_nil] at hrs
        subst hrs
        exact ⟨_, hnext, .launched hne hsorted (hall.imp fun _ _ => hruns)⟩
    · exact ⟨phase, hi, hkept⟩
  | _ => exact ⟨phase, hi, hkept⟩

/-! ## Which dispatch a pipeline belongs to -/

/-- Each pipeline belongs to one dispatch. -/
def Disjoint (t : Traffic) : Prop :=
  (t.dispatches.flatMap fun d => d.phase.handles).Perm (List.range t.pipelines.length)

theorem flatMap_set_perm {α β : Type} {f : α → List β} {l : List α} {i : Nat} {a : α}
    (h : l[i]? = some a) (b : α) :
    ((l.set i b).flatMap f ++ f a).Perm (l.flatMap f ++ f b) := by
  obtain ⟨hi, rfl⟩ := List.getElem?_eq_some_iff.1 h
  have hset := (List.set_perm_cons_eraseIdx hi b).flatMap_right f
  have hget := (List.getElem_cons_eraseIdx_perm hi).symm.flatMap_right f
  rw [List.flatMap_cons] at hset hget
  refine (hset.append_right _).trans (?_ : List.Perm _ _) |>.trans (hget.symm.append_right _)
  rw [List.append_assoc]
  exact (List.perm_append_comm.append_left _).trans List.perm_append_comm

theorem Disjoint.enter {phase next : DispatchPhase} (h : t.Disjoint)
    (hd : t.dispatches[i]? = some ⟨e, phase⟩) {u : Traffic} (hu : u.dispatches = t.dispatches)
    {new : List Nat} (hnext : next.handles = phase.handles ++ new)
    (hnew : List.range u.pipelines.length = List.range t.pipelines.length ++ new) :
    (u.enter i e next).Disjoint := by
  have hset := flatMap_set_perm (f := fun d : Dispatch => d.phase.handles) hd ⟨e, next⟩
  rw [hnext] at hset
  rw [Disjoint, Traffic.enter, hu, hnew]
  refine (List.perm_append_right_iff phase.handles).1 (hset.trans ?_)
  rw [List.append_assoc]
  exact (List.Perm.append h List.perm_append_comm)

/-- No step gives a pipeline to a second dispatch. -/
theorem Disjoint.step (h : t.Disjoint) (hs : Step changes t u) : u.Disjoint := by
  have hsame : List.range t.pipelines.length = List.range t.pipelines.length ++ [] :=
    (List.append_nil _).symm
  cases hs with
  | take | hand =>
    rw [Disjoint, accept, List.flatMap_append]
    exact (List.append_nil _).symm ▸ h
  | receive hd | look hd | miss hd => exact h.enter hd rfl rfl hsame
  | hit _ hd => exact h.enter hd rfl rfl hsame
  | finishDispatch hd => exact h.enter hd rfl (List.append_nil _).symm hsame
  | spawn hd =>
    refine h.enter hd rfl rfl ?_
    rw [spawn, List.length_append, List.length_singleton, List.range_succ]
  | advance | finish => rwa [Disjoint, List.length_set]
  | _ => exact h

/-! ## Coming to an end -/

theorem move?_advance {l : Launched} {h : Nat} (hl : t.pipelines[h]? = some l) :
    t.move? (.advance h) = t.advance? h l := by
  rw [move?, hl]; rfl

theorem move?_finish {l : Launched} {h : Nat} (hl : t.pipelines[h]? = some l) :
    t.move? (.finish h) = t.finish? h l := by
  rw [move?, hl]; rfl

/-- A dispatch can always come to its end: it waits for nothing else. -/
theorem exists_ended (changes : Store → Store → Prop) (i : Nat) (e : Event) :
    ∀ {phase : DispatchPhase} {t : Traffic}, t.dispatches[i]? = some ⟨e, phase⟩ →
      ∃ u o, Leads changes t u ∧ u.dispatches[i]? = some ⟨e, .ended o⟩ := by
  -- one move, then what is left to do
  have hmove {phase next : DispatchPhase} {t u : Traffic} (hi : t.dispatches[i]? = some ⟨e, phase⟩)
      (hu : t.dispatch? i ⟨e, phase⟩ = some (u.enter i e next)) (hsame : u.dispatches = t.dispatches)
      (hrest : ∀ {t : Traffic}, t.dispatches[i]? = some ⟨e, next⟩ →
        ∃ u o, Leads changes t u ∧ u.dispatches[i]? = some ⟨e, .ended o⟩) :
      ∃ u o, Leads changes t u ∧ u.dispatches[i]? = some ⟨e, .ended o⟩ := by
    have hnext : (u.enter i e next).dispatches[i]? = some ⟨e, next⟩ :=
      List.getElem?_set_self (hsame ▸ (List.getElem?_eq_some_iff.1 hi).1)
    obtain ⟨v, o, hv, ho⟩ := hrest hnext
    exact ⟨v, o, (Leads.move (.dispatch i) .refl trivial ((move?_dispatch hi).trans hu)).trans hv, ho⟩
  have hend {o : DispatchOutcome} {t : Traffic} (hi : t.dispatches[i]? = some ⟨e, .ended o⟩) :
      ∃ u o, Leads changes t u ∧ u.dispatches[i]? = some ⟨e, .ended o⟩ := ⟨t, o, .refl, hi⟩
  have hlaunching : ∀ (left : List Reaction) {handles : List Nat} {t : Traffic},
      t.dispatches[i]? = some ⟨e, .launching left handles⟩ →
      ∃ u o, Leads changes t u ∧ u.dispatches[i]? = some ⟨e, .ended o⟩ := by
    intro left
    induction left with
    | nil => exact fun hi => hmove hi rfl rfl hend
    | cons r left ih => exact fun hi => hmove hi rfl rfl ih
  have hmatched {rs : List Reaction} {t : Traffic} (hi : t.dispatches[i]? = some ⟨e, .matched rs⟩) :
      ∃ u o, Leads changes t u ∧ u.dispatches[i]? = some ⟨e, .ended o⟩ := by
    cases rs with
    | nil => exact hmove hi rfl rfl hend
    | cons r rs => exact hmove hi rfl rfl (hlaunching (r :: rs))
  have hreceived {t : Traffic} (hi : t.dispatches[i]? = some ⟨e, .received⟩) :
      ∃ u o, Leads changes t u ∧ u.dispatches[i]? = some ⟨e, .ended o⟩ := hmove hi rfl rfl hmatched
  intro phase t hi
  cases phase with
  | waiting => exact hmove hi rfl rfl hreceived
  | received => exact hreceived hi
  | matched rs => exact hmatched hi
  | launching left handles => exact hlaunching left hi
  | ended o => exact hend hi

/-- A pipeline that has ended can be counted, if it is not yet. -/
theorem exists_outcome_of_ended (changes : Store → Store → Prop) {l : Launched} {h : Nat}
    {o : Outcome} (hl : t.pipelines[h]? = some l) (ho : l.pipeline.outcome? = some o)
    (hsame : ∀ o, l.outcome? = some o → l.pipeline.outcome? = some o) :
    ∃ u, Leads changes t u ∧ u.outcome? h = some o := by
  obtain ⟨p, o?⟩ := l
  cases o? with
  | some o' =>
    have hboth := hsame o' rfl
    rw [ho] at hboth
    cases hboth
    exact ⟨t, .refl, by rw [Traffic.outcome?, hl]; rfl⟩
  | none =>
    have hmove := (move?_finish hl).trans (by rw [finish?, ho])
    refine ⟨_, .move (.finish h) .refl trivial hmove, ?_⟩
    rw [Traffic.outcome?, List.getElem?_set_self (List.getElem?_eq_some_iff.1 hl).1]
    rfl

/-- A pipeline that comes to an end by itself can always do so: it waits for
    nothing else. -/
theorem exists_outcome (changes : Store → Store → Prop) {r : Reaction} {h : Nat} {o : Outcome}
    (ho : Alone w e r o) (hw : t.engine.surroundings = w) (hr : t.RunsAt w e r h) :
    ∃ u, Leads changes t u ∧ u.outcome? h = some o := by
  obtain ⟨n, hn⟩ := ho
  obtain ⟨l, hl, ⟨k, hk⟩, hsame⟩ := hr
  -- induction on how many steps the pipeline is away from its end
  induction hm : n - k generalizing k t l with
  | zero =>
    obtain ⟨j, rfl⟩ := Nat.exists_eq_add_of_le (Nat.le_of_sub_eq_zero hm)
    rw [Pipeline.run_add n (Pipeline.isEnded_iff.2 ⟨o, hn⟩)] at hk
    exact exists_outcome_of_ended changes hl (hk ▸ hn) hsame
  | succ m ih =>
    cases hended : l.pipeline.isEnded with
    | true =>
      obtain ⟨j, rfl⟩ := Nat.exists_eq_add_of_le (show k ≤ n by omega)
      rw [Pipeline.run_add k (hk ▸ hended), ← hk] at hn
      exact exists_outcome_of_ended changes hl hn hsame
    | false =>
      let next : Launched := { l with pipeline := (l.pipeline.step t.engine.surroundings).1 }
      have hmove : t.move? (.advance h) = some { t with pipelines := t.pipelines.set h next } :=
        (move?_advance hl).trans (if_neg (by simp [hended]))
      have hnext : (t.pipelines.set h next)[h]? = some next :=
        List.getElem?_set_self (List.getElem?_eq_some_iff.1 hl).1
      have hstep : next.pipeline = ((Pipeline.new e r).run w (k + 1)).1 := by
        rw [Pipeline.run_succ, ← hk, ← hw]
      have hrunning (o : Outcome) (ho : next.outcome? = some o) : next.pipeline.outcome? = some o := by
        rw [Pipeline.isEnded_iff.2 ⟨o, hsame o ho⟩] at hended
        cases hended
      obtain ⟨u, hu, ho⟩ := ih (t := { t with pipelines := t.pipelines.set h next }) hw next hnext
        hrunning (k + 1) hstep (by omega)
      exact ⟨u, (Leads.move (.advance h) .refl trivial hmove).trans hu, ho⟩

/-- Pipelines that come to an end by themselves can be waited for. -/
theorem exists_outcomes (changes : Store → Store → Prop) : ∀ {rs : List Reaction} {hs : List Nat}
    {t : Traffic}, t.engine.surroundings = w → List.Forall₂ (t.RunsAt w e) rs hs →
    (∀ r ∈ rs, ∃ o, Alone w e r o) → ∃ u os, Leads changes t u ∧ hs.mapM u.outcome? = some os
  | [], _, t, _, .nil, _ => ⟨t, [], .refl, rfl⟩
  | r :: rs, h :: hs, t, hw, .cons hr hall, halone => by
    obtain ⟨o, ho⟩ := halone r List.mem_cons_self
    obtain ⟨u, hu, huo⟩ := exists_outcome changes ho hw hr
    obtain ⟨v, os, hv, hos⟩ := exists_outcomes changes (hu.surroundings.trans hw)
      (hall.imp fun _ _ hr => hr.leads hw hu) fun r hr => halone r (List.mem_cons_of_mem _ hr)
    have hvo : v.outcome? h = some o :=
      hv.keeps (P := fun t => t.outcome? h = some o) outcome?_step huo
    exact ⟨v, o :: os, hu.trans hv, by rw [List.mapM_cons, hvo, hos]; rfl⟩

theorem mapM_eq_some {α β : Type} {f : α → Option β} : ∀ {as : List α} {bs : List β},
    as.mapM f = some bs → List.Forall₂ (fun a b => f a = some b) as bs
  | [], _, h => by cases h; exact .nil
  | a :: as, _, h => by
    rw [List.mapM_cons] at h
    obtain ⟨b, hb, h⟩ := Option.bind_eq_some_iff.1 h
    obtain ⟨bs, hbs, h⟩ := Option.bind_eq_some_iff.1 h
    cases h
    exact .cons hb (mapM_eq_some hbs)

/-- Waiting for pipelines gives what comes of each by itself, in order. -/
theorem alone_of_outcomes : ∀ {rs : List Reaction} {hs : List Nat} {os : List Outcome},
    List.Forall₂ (t.RunsAt w e) rs hs → List.Forall₂ (fun h o => t.outcome? h = some o) hs os →
    List.Forall₂ (fun r o => ∀ o', Alone w e r o' ↔ o' = o) rs os
  | [], _, _, .nil, .nil => .nil
  | _ :: _, _, _, .cons ⟨l, hl, hrun⟩ hall, .cons ho hos => by
    rw [Traffic.outcome?, hl] at ho
    exact .cons (hrun.alone_iff ho) (alone_of_outcomes hall hos)

/-- What a state looks like after a dispatch has looked up some reactions. -/
theorem Serves.leads (hw : t.engine.surroundings = w) (hi : t.dispatches[i]? = some ⟨e, phase⟩)
    (h : t.Serves w e rs phase) (hu : Leads changes t u) :
    ∃ phase, u.dispatches[i]? = some ⟨e, phase⟩ ∧ u.Serves w e rs phase := by
  induction hu with
  | refl => exact ⟨phase, hi, h⟩
  | move m hu ha hm ih =>
    obtain ⟨phase, hi, h⟩ := ih
    exact h.step (hu.surroundings.trans hw) hi (step_of_move? ha hm)

/-- The active reactions are always those of a history. -/
theorem exists_history {actions : Registry ActionModule} {sources : Registry EventSource}
    {evaluate : Evaluator} {queue : Queue}
    (ht : Leads Store.Edit (.start (.new actions sources evaluate) queue) t) :
    ∃ log, Store.History log t.engine.store := by
  refine ht.keeps (P := fun t => ∃ log, Store.History log t.engine.store) (fun h hs => ?_)
    ⟨[], .empty⟩
  cases hs with
  | change hedit =>
    obtain ⟨log, hlog⟩ := h
    exact hlog.edit hedit
  | _ => exact h

/-- **Pipelines do not disturb each other.**  A dispatch that looks up the
    reactions to its event finds those of the event, in the order in which they
    came, none twice.  Whatever happens then, it launches one pipeline for each
    of them in this order, and no other dispatch has these; what comes of each
    pipeline, and is waited for, is what comes of its reaction by itself.  The
    dispatch can always come to its end, and so can its pipelines if each of them
    does by itself. -/
theorem dispatch_isolated {actions : Registry ActionModule} {sources : Registry EventSource}
    {evaluate : Evaluator} {queue : Queue} {t t' u : Traffic} {i : Nat} {e : Event}
    (ht : Leads Store.Edit (.start (.new actions sources evaluate) queue) t)
    (hi : t.dispatches[i]? = some ⟨e, .received⟩) (hlook : t.move? (.dispatch i) = some t')
    (hu : Leads Store.Edit t' u) :
    let w : Surroundings := ⟨evaluate, actions⟩
    let rs := t.engine.store.matchesFor e.name
    (∃ log, Store.History log t.engine.store ∧ rs = log.filter (·.event == e.name)) ∧
      (rs.map (·.name)).Nodup ∧
      (u.dispatches.flatMap fun d => d.phase.handles).Perm (List.range u.pipelines.length) ∧
      (∀ o, u.dispatches[i]? = some ⟨e, .ended o⟩ →
        (o = .unmatched ↔ rs = []) ∧ o.handles.Pairwise (· < ·) ∧
        List.Forall₂ (fun r h => ∃ l, u.pipelines[h]? = some l ∧ l.pipeline.event = e ∧
          l.pipeline.reaction = r ∧
          ∀ o, l.outcome? = some o → ∀ o', Alone w e r o' ↔ o' = o) rs o.handles ∧
        ∀ os, u.join o = some os →
          List.Forall₂ (fun r o => ∀ o', Alone w e r o' ↔ o' = o) rs os) ∧
      ∃ v o, Leads Store.Edit u v ∧ v.dispatches[i]? = some ⟨e, .ended o⟩ ∧
        ((∀ r ∈ rs, ∃ o, Alone w e r o) → ∃ v' os, Leads Store.Edit v v' ∧ v'.join o = some os) := by
  intro w rs
  obtain ⟨log, hlog⟩ := exists_history ht
  have hw : t.engine.surroundings = w := ht.surroundings
  have hdisjoint : t.Disjoint := ht.keeps (P := Disjoint) Disjoint.step (.refl _)
  have hstep : Step Store.Edit t t' := step_of_move? (m := .dispatch i) trivial hlook
  rw [move?_dispatch hi] at hlook
  cases hlook
  have hmatched : (t.enter i e (.matched rs)).dispatches[i]? = some ⟨e, .matched rs⟩ :=
    List.getElem?_set_self (List.getElem?_eq_some_iff.1 hi).1
  have hdisjoint : u.Disjoint := hu.keeps (P := Disjoint) Disjoint.step (hdisjoint.step hstep)
  have hwm : (t.enter i e (.matched rs)).engine.surroundings = w := hw
  obtain ⟨phase, hphase, hserves⟩ := Serves.leads hwm hmatched .matched hu
  have hwu : u.engine.surroundings = w := hu.surroundings.trans hw
  refine ⟨⟨log, hlog, hlog.matchesFor e.name⟩, hlog.valid.named e.name, hdisjoint, fun o ho => ?_, ?_⟩
  · rw [hphase] at ho
    cases ho
    cases hserves with
    | unmatched hrs =>
      rw [hrs]
      exact ⟨by simp, .nil, .nil, fun os hos => by cases hos; exact .nil⟩
    | launched hne hsorted hall =>
      refine ⟨⟨nofun, fun h => absurd h hne⟩, hsorted, hall.imp fun r h ⟨l, hl, hrun⟩ => ?_,
        fun os hos => alone_of_outcomes hall (mapM_eq_some hos)⟩
      exact ⟨l, hl, hrun.same.1, hrun.same.2, fun o ho => hrun.alone_iff ho⟩
  · obtain ⟨v, o, hv, ho⟩ := exists_ended Store.Edit i e hphase
    refine ⟨v, o, hv, ho, fun halone => ?_⟩
    obtain ⟨phase', hphase', hserves⟩ := Serves.leads hwu hphase hserves hv
    rw [ho] at hphase'
    cases hphase'
    cases hserves with
    | unmatched => exact ⟨v, [], .refl, rfl⟩
    | launched _ _ hall =>
      obtain ⟨v', os, hv', hos⟩ := exists_outcomes Store.Edit (hv.surroundings.trans hwu) hall halone
      exact ⟨v', os, hv', hos⟩

/-- A reaction that is looked up and then taken away: its pipeline goes on. -/
theorem dispatch_isolated_bell :
    let bell : Reaction := ⟨"bell", "door", "ring", []⟩
    let engine : Engine := .new .actions .sources fun _ _ _ => .ok .stop
    let rung : Outcome := ⟨"door", "bell", .notLaunched, [], none⟩
    let t : Traffic := ⟨{ engine with store := ⟨[("door", [bell])]⟩, metrics := ⟨1, 0, 0, 0, 0, 0⟩ },
      ⟨1, [], 1⟩, false, [⟨⟨"door", []⟩, .received⟩], [], 0, 1⟩
    let t' := t.enter 0 ⟨"door", []⟩ (.matched [bell])
    let u : Traffic := ⟨{ engine with metrics := ⟨1, 1, 0, 0, 1, 0⟩ }, ⟨1, [], 1⟩, false,
      [⟨⟨"door", []⟩, .ended (.launched [0])⟩],
      [⟨⟨⟨"door", []⟩, bell, .notLaunched, [], .ended none⟩, some rung⟩], 0, 1⟩
    Leads Store.Edit (.start engine ⟨1, [], 1⟩) t ∧ t.move? (.dispatch 0) = some t' ∧
      Leads Store.Edit t' u ∧ u.join (.launched [0]) = some [rung] ∧
      ∀ o, Alone engine.surroundings ⟨"door", []⟩ bell o ↔ o = rung := by
  intro bell engine rung t t' u
  have hadd : Leads Store.Edit (.start engine ⟨1, [], 1⟩)
      (.start { engine with store := ⟨[("door", [bell])]⟩ } ⟨1, [], 1⟩) :=
    .move (.change _) .refl (Store.Edit.add (r := bell) rfl) rfl
  have hreceived : (start { engine with store := ⟨[("door", [bell])]⟩ } ⟨1, [], 1⟩).moves?
      [.hand ⟨"door", []⟩, .dispatch 0] = some t := rfl
  have ht : Leads Store.Edit (.start engine ⟨1, [], 1⟩) t :=
    hadd.trans (leads_of_moves? (by simp) hreceived)
  have hremove : Leads Store.Edit t' { t' with engine := { t'.engine with store := .empty } } :=
    .move (.change _) .refl (Store.Edit.remove (e := "door") (n := "bell") (r := bell) rfl) rfl
  have hrun : ({ t' with engine := { t'.engine with store := .empty } } : Traffic).moves?
      [.dispatch 0, .dispatch 0, .dispatch 0, .advance 0, .advance 0, .finish 0] = some u := rfl
  have hu : Leads Store.Edit t' u := hremove.trans (leads_of_moves? (by simp) hrun)
  have hi : t.dispatches[0]? = some ⟨⟨"door", []⟩, .received⟩ := rfl
  have hlook : t.move? (.dispatch 0) = some t' := rfl
  obtain ⟨-, -, -, hend, -⟩ := dispatch_isolated ht hi hlook hu
  obtain ⟨-, -, -, hjoin⟩ := hend _ rfl
  cases hjoin [rung] rfl with
  | cons halone _ => exact ⟨ht, hlook, hu, rfl, halone⟩

end Traffic

end Reactor
