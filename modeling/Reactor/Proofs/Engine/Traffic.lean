/-
  The moves of traffic, one by one.

  * `Step` lists all that a move can do, with what must hold for it, and
    `step_of_move?`: a move does nothing else;
  * `Leads.keeps`: what each step keeps, the states that moves lead to have;
  * `moves?_waiting`: the moves of a dispatch that nothing comes between.
-/
import Mathlib.Data.List.Basic
import Reactor.Engine.Traffic

namespace Reactor.Traffic

variable {changes : Store → Store → Prop}

/-- What a move can do. -/
inductive Step (changes : Store → Store → Prop) (t : Traffic) : Traffic → Prop
  | send {e : Event} {queue : Queue} :
      t.queue.send? e = some queue → Step changes t { t with queue, sent := t.sent + 1 }
  | senders {queue : Queue} :
      t.queue.share? = some queue ∨ t.queue.leave? = some queue → Step changes t { t with queue }
  | take {e : Event} {queue : Queue} :
      t.stopped = false → t.queue.take? = some (e, queue) →
      Step changes t ({ t with queue }.accept e)
  | stop : t.queue.isExhausted = true → Step changes t { t with stopped := true }
  | hand {e : Event} : Step changes t ({ t with handed := t.handed + 1 }.accept e)
  | receive {i : Nat} {e : Event} :
      t.dispatches[i]? = some ⟨e, .waiting⟩ →
      Step changes t ({ t with engine := t.engine.receive }.enter i e .received)
  | look {i : Nat} {e : Event} :
      t.dispatches[i]? = some ⟨e, .received⟩ →
      Step changes t (t.enter i e (.matched (t.engine.store.matchesFor e.name)))
  | miss {i : Nat} {e : Event} :
      t.dispatches[i]? = some ⟨e, .matched []⟩ →
      Step changes t
        ({ t with engine := t.engine.countMatch false }.enter i e (.ended .unmatched))
  | hit {i : Nat} {e : Event} {rs : List Reaction} :
      rs ≠ [] → t.dispatches[i]? = some ⟨e, .matched rs⟩ →
      Step changes t
        ({ t with engine := t.engine.countMatch true }.enter i e (.launching rs []))
  | spawn {i : Nat} {e : Event} {r : Reaction} {left : List Reaction} {handles : List Nat} :
      t.dispatches[i]? = some ⟨e, .launching (r :: left) handles⟩ →
      Step changes t ((t.spawn (.new e r)).enter i e
        (.launching left (handles ++ [t.pipelines.length])))
  | finishDispatch {i : Nat} {e : Event} {handles : List Nat} :
      t.dispatches[i]? = some ⟨e, .launching [] handles⟩ →
      Step changes t (t.enter i e (.ended (.launched handles)))
  | advance {h : Nat} {l : Launched} :
      t.pipelines[h]? = some l → l.pipeline.isEnded = false →
      Step changes t { t with
        pipelines :=
          t.pipelines.set h { l with pipeline := (l.pipeline.step t.engine.surroundings).1 } }
  | finish {h : Nat} {p : Pipeline} {o : Outcome} :
      t.pipelines[h]? = some ⟨p, none⟩ → p.outcome? = some o →
      Step changes t { t with
        engine := t.engine.finish o.status, pipelines := t.pipelines.set h ⟨p, some o⟩ }
  | change {store : Store} :
      changes t.engine.store store → Step changes t { t with engine := { t.engine with store } }

theorem step_of_dispatch? {t u : Traffic} {i : Nat} {d : Dispatch} (hd : t.dispatches[i]? = some d)
    (hu : t.dispatch? i d = some u) : Step changes t u := by
  obtain ⟨e, phase⟩ := d
  cases phase with
  | waiting => cases hu; exact .receive hd
  | received => cases hu; exact .look hd
  | matched rs =>
    cases rs with
    | nil => cases hu; exact .miss hd
    | cons r rs => cases hu; exact .hit (List.cons_ne_nil r rs) hd
  | launching left handles =>
    cases left with
    | nil => cases hu; exact .finishDispatch hd
    | cons r left => cases hu; exact .spawn hd
  | ended o => cases hu

theorem step_of_finish? {t u : Traffic} {h : Nat} {l : Launched} (hl : t.pipelines[h]? = some l)
    (hu : t.finish? h l = some u) : Step changes t u := by
  obtain ⟨p, o?⟩ := l
  cases o? with
  | some o => cases hu
  | none =>
    cases ho : p.outcome? with
    | none => rw [finish?, ho] at hu; cases hu
    | some o => rw [finish?, ho] at hu; cases hu; exact .finish hl ho

/-- **A move is one of the steps.** -/
theorem step_of_move? {t u : Traffic} {m : Move} (ha : t.Allows changes m)
    (hm : t.move? m = some u) : Step changes t u := by
  cases m with
  | send e => obtain ⟨queue, hq, rfl⟩ := Option.map_eq_some_iff.1 hm; exact .send hq
  | share => obtain ⟨queue, hq, rfl⟩ := Option.map_eq_some_iff.1 hm; exact .senders (.inl hq)
  | leave => obtain ⟨queue, hq, rfl⟩ := Option.map_eq_some_iff.1 hm; exact .senders (.inr hq)
  | take =>
    rw [move?] at hm
    split at hm
    · cases hm
    · rename_i hstopped
      obtain ⟨⟨e, queue⟩, hq, rfl⟩ := Option.map_eq_some_iff.1 hm
      exact .take (Bool.eq_false_iff.2 hstopped) hq
  | stop =>
    rw [move?] at hm
    split at hm
    · rename_i hexhausted; cases hm; exact .stop hexhausted
    · cases hm
  | hand e => cases hm; exact .hand
  | dispatch i =>
    obtain ⟨d, hd, hu⟩ := Option.bind_eq_some_iff.1 hm
    exact step_of_dispatch? hd hu
  | advance h =>
    obtain ⟨l, hl, hu⟩ := Option.bind_eq_some_iff.1 hm
    rw [advance?] at hu
    split at hu
    · cases hu
    · rename_i hended; cases hu; exact .advance hl (Bool.eq_false_iff.2 hended)
  | finish h =>
    obtain ⟨l, hl, hu⟩ := Option.bind_eq_some_iff.1 hm
    exact step_of_finish? hl hu
  | change store => cases hm; exact .change ha

/-! ## From state to state -/

theorem Leads.trans {t u v : Traffic} (h : Leads changes t u) (h' : Leads changes u v) :
    Leads changes t v := by
  induction h' with
  | refl => exact h
  | move m _ ha hm ih => exact .move m ih ha hm

/-- Moves in a row lead to a state, if none of them changes the active
    reactions. -/
theorem leads_of_moves? : ∀ {ms : List Move} {t u : Traffic}, (∀ m ∈ ms, ∀ s, m ≠ .change s) →
    t.moves? ms = some u → Leads changes t u
  | [], t, u, _, h => by cases h; exact .refl
  | m :: ms, t, u, hms, h => by
    obtain ⟨v, hv, h⟩ := Option.bind_eq_some_iff.1 h
    have ha : t.Allows changes m := by
      cases m with
      | change s => exact absurd rfl (hms _ List.mem_cons_self s)
      | _ => trivial
    exact (Leads.move m .refl ha hv).trans
      (leads_of_moves? (fun m hm => hms m (List.mem_cons_of_mem _ hm)) h)

/-- What each step keeps is kept for ever. -/
theorem Leads.keeps {P : Traffic → Prop} {t u : Traffic} (h : Leads changes t u)
    (hstep : ∀ {u v}, P u → Step changes u v → P v) (ht : P t) : P u := by
  induction h with
  | refl => exact ht
  | move m _ ha hm ih => exact hstep ih (step_of_move? ha hm)

/-! ## A dispatch by itself -/

theorem move?_dispatch {t : Traffic} {i : Nat} {d : Dispatch} (h : t.dispatches[i]? = some d) :
    t.move? (.dispatch i) = t.dispatch? i d := by
  rw [move?, h]; rfl

theorem getElem?_enter {t : Traffic} {i : Nat} {d : Dispatch} (h : t.dispatches[i]? = some d)
    (e : Event) (next : DispatchPhase) : (t.enter i e next).dispatches[i]? = some ⟨e, next⟩ :=
  List.getElem?_set_self (List.getElem?_eq_some_iff.1 h).1

/-- Pipelines are launched. -/
def spawnAll (t : Traffic) (ps : List Pipeline) : Traffic :=
  { t with pipelines := t.pipelines ++ ps.map (Launched.mk · none) }

theorem moves?_launching {i : Nat} {e : Event} : ∀ {left : List Reaction} {handles : List Nat}
    {t : Traffic}, t.dispatches[i]? = some ⟨e, .launching left handles⟩ →
    t.moves? (.replicate (left.length + 1) (.dispatch i)) =
      some ((t.spawnAll (left.map (.new e))).enter i e
        (.ended (.launched (handles ++ .range' t.pipelines.length left.length))))
  | [], handles, t, hi => by
    have hmove : t.move? (.dispatch i) = some (t.enter i e (.ended (.launched handles))) :=
      move?_dispatch hi
    simp [List.replicate_succ, moves?, hmove, spawnAll]
  | r :: left, handles, t, hi => by
    have hmove : t.move? (.dispatch i) = some ((t.spawn (.new e r)).enter i e
        (.launching left (handles ++ [t.pipelines.length]))) := move?_dispatch hi
    have hrest := moves?_launching (getElem?_enter (t := t.spawn (.new e r)) hi e
      (.launching left (handles ++ [t.pipelines.length])))
    rw [List.length_cons, List.replicate_succ, moves?, hmove]
    refine hrest.trans ?_
    simp [enter, spawn, spawnAll, List.range'_succ]

/-- What a dispatch gives that has launched pipelines in a row. -/
def launchedFrom (first : Nat) (ps : List Pipeline) : DispatchOutcome :=
  if ps.isEmpty then .unmatched else .launched (.range' first ps.length)

theorem moves?_cons {m : Move} {ms : List Move} {t u : Traffic} (h : t.move? m = some u) :
    t.moves? (m :: ms) = u.moves? ms := by
  rw [moves?, h]; rfl

theorem moves?_matched {t : Traffic} {i : Nat} {e : Event} {rs : List Reaction}
    (hi : t.dispatches[i]? = some ⟨e, .matched rs⟩) :
    ∃ n, t.moves? (.replicate n (.dispatch i)) =
      some ((spawnAll { t with engine := t.engine.countMatch !rs.isEmpty } (rs.map (.new e))).enter i e
        (.ended (launchedFrom t.pipelines.length (rs.map (.new e))))) := by
  cases rs with
  | nil =>
    refine ⟨1, (moves?_cons (move?_dispatch hi)).trans ?_⟩
    rw [spawnAll, List.map_nil, List.map_nil, List.append_nil]
    rfl
  | cons r rs =>
    have hlaunching := getElem?_enter (t := { t with engine := t.engine.countMatch true }) hi e
      (.launching (r :: rs) [])
    refine ⟨(r :: rs).length + 1 + 1, (moves?_cons (move?_dispatch hi)).trans ?_⟩
    refine (moves?_launching hlaunching).trans ?_
    simp [enter, spawnAll, launchedFrom]

/-- **A dispatch that nothing comes between** does what the engine does at once. -/
theorem moves?_waiting {t : Traffic} {i : Nat} {e : Event}
    (hi : t.dispatches[i]? = some ⟨e, .waiting⟩) :
    let (ps, engine) := t.engine.dispatch e
    ∃ n, t.moves? (.replicate n (.dispatch i)) =
      some ((spawnAll { t with engine } ps).enter i e (.ended (launchedFrom t.pipelines.length ps))) := by
  have hreceived := getElem?_enter (t := { t with engine := t.engine.receive }) hi e .received
  have hmatched := getElem?_enter hreceived e (.matched (t.engine.receive.store.matchesFor e.name))
  obtain ⟨n, hn⟩ := moves?_matched hmatched
  refine ⟨n + 2, (moves?_cons (move?_dispatch hi)).trans ?_⟩
  refine ((moves?_cons (move?_dispatch hreceived)).trans hn).trans ?_
  simp [enter, spawnAll]

end Reactor.Traffic
