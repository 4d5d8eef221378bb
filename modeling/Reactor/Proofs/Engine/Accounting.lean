/-
  No event is lost or counted twice.

  * `Conserved`: an event that was sent or handed in is in the queue or has a
    dispatch; `Conserved.step`: each step keeps that;
  * `Counted`: the metrics are the numbers of the dispatches that have come so
    far, and of the pipelines that have ended so; `Counted.step`: each step keeps
    that, too;
  * `events_accounted`: what that means for the counts at any time, and once all
    is over.
-/
import Reactor.Proofs.Engine.Traffic

namespace Reactor

/-- How many pipelines are counted to have ended so. -/
def Metrics.ended (m : Metrics) : Status → UInt64
  | .done => m.done
  | .notLaunched => m.notLaunched
  | .error => m.failed

theorem Metrics.ended_countEnded (m : Metrics) (s s' : Status) :
    (m.countEnded s).ended s' = if s = s' then m.ended s' + 1 else m.ended s' := by
  cases s <;> cases s' <;> rfl

namespace DispatchPhase

/-- Whether a dispatch has begun, so that its event is counted. -/
def isBegun : DispatchPhase → Bool
  | waiting => false
  | _ => true

/-- Whether it is counted that there are reactions to the event. -/
def isHit : DispatchPhase → Bool
  | launching .. | ended (.launched _) => true
  | _ => false

/-- Whether it is counted that there are none. -/
def isMiss : DispatchPhase → Bool
  | ended .unmatched => true
  | _ => false

/-- Whether a dispatch has ended. -/
def isEnded : DispatchPhase → Bool
  | ended _ => true
  | _ => false

end DispatchPhase

namespace Traffic

open DispatchPhase

variable {changes : Store → Store → Prop} {t u : Traffic}

/-- How many dispatches are so far. -/
def dispatched (t : Traffic) (p : DispatchPhase → Bool) : Nat :=
  t.dispatches.countP fun d => p d.phase

/-- How many pipelines have ended so, and are counted. -/
def endedAs (t : Traffic) (s : Status) : Nat :=
  t.pipelines.countP fun l => l.outcome?.any (·.status == s)

/-! ## Lists in which an entry changes -/

theorem countP_set_add {α : Type} {p : α → Bool} {l : List α} {i : Nat} {a : α}
    (h : l[i]? = some a) (b : α) :
    (l.set i b).countP p + (p a).toNat = l.countP p + (p b).toNat := by
  obtain ⟨hi, rfl⟩ := List.getElem?_eq_some_iff.1 h
  have hpos : p l[i] = true → 0 < l.countP p := fun hp =>
    List.countP_pos_iff.2 ⟨_, List.getElem_mem hi, hp⟩
  rw [List.countP_set hi]
  cases hp : p l[i] with
  | false => cases p b <;> simp
  | true =>
    have := hpos hp
    cases p b <;> simp <;> omega

theorem dispatched_enter {i : Nat} {e : Event} {phase : DispatchPhase}
    (h : t.dispatches[i]? = some ⟨e, phase⟩) (next : DispatchPhase) (p : DispatchPhase → Bool) :
    (t.enter i e next).dispatched p + (p phase).toNat = t.dispatched p + (p next).toNat :=
  countP_set_add h _

theorem dispatched_accept (t : Traffic) (e : Event) (p : DispatchPhase → Bool) :
    (t.accept e).dispatched p = t.dispatched p + (p .waiting).toNat := by
  rw [dispatched, accept, List.countP_append, List.countP_singleton]
  cases p .waiting <;> rfl

theorem dispatched_add_not (t : Traffic) (p : DispatchPhase → Bool) :
    t.dispatched p + t.dispatched (fun phase => !p phase) = t.dispatches.length := by
  rw [List.length_eq_countP_add_countP fun d : Dispatch => p d.phase]
  simp [dispatched]

theorem dispatched_mono {p q : DispatchPhase → Bool} (h : ∀ phase, p phase → q phase) :
    t.dispatched p ≤ t.dispatched q :=
  List.countP_mono_left fun d _ => h d.phase

/-! ## Where events are -/

/-- The queue is not too long, each event that was sent or handed in is in it or
    has a dispatch, and the loop has not stopped too early. -/
structure Conserved (t : Traffic) : Prop where
  fits : t.queue.events.length ≤ t.queue.capacity
  kept : t.sent + t.handed = t.queue.events.length + t.dispatches.length
  stopped : t.stopped = true → t.queue.isExhausted = true

theorem send?_eq_some {q queue : Queue} {e : Event} :
    q.send? e = some queue ↔ (0 < q.senders ∧ q.events.length < q.capacity) ∧
      queue = { q with events := q.events ++ [e] } := by
  rw [Queue.send?]
  split
  · rename_i h
    exact ⟨fun hq => ⟨h, (Option.some.inj hq).symm⟩, fun hq => congrArg some hq.2.symm⟩
  · rename_i h
    exact ⟨nofun, fun hq => absurd hq.1 h⟩

theorem senders_cases {q queue : Queue} (h : q.share? = some queue ∨ q.leave? = some queue) :
    0 < q.senders ∧ ∃ n, queue = { q with senders := n } := by
  simp only [Queue.share?, Queue.leave?] at h
  rcases h with h | h
  · split at h
    · rename_i hs; cases h; exact ⟨hs, _, rfl⟩
    · cases h
  · split at h
    · rename_i hs; cases h; exact ⟨hs, _, rfl⟩
    · cases h

theorem take?_eq_some {q queue : Queue} {e : Event} :
    q.take? = some (e, queue) ↔ q.events = e :: queue.events ∧
      queue = { q with events := queue.events } := by
  obtain ⟨capacity, events, senders⟩ := q
  obtain ⟨capacity', events', senders'⟩ := queue
  cases events with
  | nil => exact ⟨nofun, nofun⟩
  | cons e' rest =>
    simp only [Queue.take?, Option.some.injEq, Prod.mk.injEq, Queue.mk.injEq, List.cons.injEq]
    constructor
    · rintro ⟨rfl, rfl, rfl, rfl⟩; exact ⟨⟨rfl, rfl⟩, rfl, trivial, rfl⟩
    · rintro ⟨⟨rfl, rfl⟩, rfl, -, rfl⟩; exact ⟨rfl, rfl, rfl, rfl⟩

theorem isExhausted_iff {q : Queue} : q.isExhausted = true ↔ q.events = [] ∧ q.senders = 0 := by
  rw [Queue.isExhausted, Bool.and_eq_true, List.isEmpty_iff, decide_eq_true_iff]

/-- **No step loses an event.** -/
theorem Conserved.step (h : Conserved t) (hs : Step changes t u) : Conserved u := by
  obtain ⟨hfits, hkept, hstopped⟩ := h
  cases hs with
  | send hq =>
    obtain ⟨⟨hsenders, hroom⟩, rfl⟩ := send?_eq_some.1 hq
    have hgone : t.stopped = true → t.queue.senders = 0 := fun h => (isExhausted_iff.1 (hstopped h)).2
    refine ⟨?_, ?_, fun h => absurd (hgone h) (by omega)⟩
    · rw [List.length_append, List.length_singleton]; exact hroom
    · rw [List.length_append, List.length_singleton]; dsimp only; omega
  | senders hq =>
    obtain ⟨hsenders, n, rfl⟩ := senders_cases hq
    have hgone : t.stopped = true → t.queue.senders = 0 := fun h => (isExhausted_iff.1 (hstopped h)).2
    exact ⟨hfits, hkept, fun h => absurd (hgone h) (by omega)⟩
  | take hrun hq =>
    obtain ⟨hevents, hqueue⟩ := take?_eq_some.1 hq
    rw [hqueue]
    rw [hevents, List.length_cons] at hfits hkept
    refine ⟨?_, ?_, fun h => ?_⟩
    · dsimp only [accept]; omega
    · rw [accept, List.length_append, List.length_singleton]; dsimp only; omega
    · rw [show t.stopped = true from h] at hrun; cases hrun
  | stop hexhausted => exact ⟨hfits, hkept, fun _ => hexhausted⟩
  | hand =>
    refine ⟨hfits, ?_, hstopped⟩
    rw [accept, List.length_append, List.length_singleton]; dsimp only; omega
  | receive hd | look hd | miss hd | hit _ hd | spawn hd | finishDispatch hd =>
    exact ⟨hfits, hkept.trans (congrArg _ List.length_set.symm), hstopped⟩
  | advance | finish | change => exact ⟨hfits, hkept, hstopped⟩

/-- The queue keeps its capacity. -/
theorem capacity_step (hs : Step changes t u) : u.queue.capacity = t.queue.capacity := by
  cases hs with
  | send hq => obtain ⟨-, rfl⟩ := send?_eq_some.1 hq; rfl
  | senders hq => obtain ⟨-, n, rfl⟩ := senders_cases hq; rfl
  | take _ hq => rw [(take?_eq_some.1 hq).2]; rfl
  | _ => rfl

/-! ## What is counted -/

/-- The metrics count the dispatches that have come so far, and the pipelines
    that have ended so. -/
structure Counted (t : Traffic) : Prop where
  received : t.engine.metrics.received = .ofNat (t.dispatched isBegun)
  matched : t.engine.metrics.matched = .ofNat (t.dispatched isHit)
  unmatched : t.engine.metrics.unmatched = .ofNat (t.dispatched isMiss)
  ended : ∀ s, t.engine.metrics.ended s = .ofNat (t.endedAs s)

theorem Counted.accept (h : Counted t) {u : Traffic} (hd : u.dispatches = t.dispatches)
    (hp : u.pipelines = t.pipelines) (hm : u.engine.metrics = t.engine.metrics) (e : Event) :
    Counted (u.accept e) := by
  have hcount (p : DispatchPhase → Bool) (hwaiting : p .waiting = false) :
      (u.accept e).dispatched p = t.dispatched p := by
    rw [dispatched_accept, hwaiting, Bool.toNat_false, Nat.add_zero, dispatched, hd, dispatched]
  have hended (s : Status) : (u.accept e).endedAs s = t.endedAs s := by
    rw [endedAs, Traffic.accept, hp, endedAs]
  constructor
  · rw [hcount _ rfl, ← h.received, ← hm]; rfl
  · rw [hcount _ rfl, ← h.matched, ← hm]; rfl
  · rw [hcount _ rfl, ← h.unmatched, ← hm]; rfl
  · intro s; rw [hended, ← h.ended, ← hm]; rfl

/-- A dispatch that goes on is counted right if the metrics go on with it. -/
theorem Counted.enter (h : Counted t) {i : Nat} {e : Event} {phase next : DispatchPhase}
    (hd : t.dispatches[i]? = some ⟨e, phase⟩) {u : Traffic} (hu : u.dispatches = t.dispatches)
    (hreceived : u.engine.metrics.received + .ofNat phase.isBegun.toNat =
      t.engine.metrics.received + .ofNat next.isBegun.toNat)
    (hmatched : u.engine.metrics.matched + .ofNat phase.isHit.toNat =
      t.engine.metrics.matched + .ofNat next.isHit.toNat)
    (hunmatched : u.engine.metrics.unmatched + .ofNat phase.isMiss.toNat =
      t.engine.metrics.unmatched + .ofNat next.isMiss.toNat)
    (hended : ∀ s, u.engine.metrics.ended s = t.engine.metrics.ended s)
    (hendedAs : ∀ s, u.endedAs s = t.endedAs s) : Counted (u.enter i e next) := by
  have hcount {m m' : UInt64} {p : DispatchPhase → Bool} (hm : m' = .ofNat (t.dispatched p))
      (hstep : m + .ofNat (p phase).toNat = m' + .ofNat (p next).toNat) :
      m = .ofNat ((u.enter i e next).dispatched p) := by
    have hcounts := dispatched_enter (t := u) (hu ▸ hd) next p
    have hsame : u.dispatched p = t.dispatched p := by rw [dispatched, hu]; rfl
    rw [hsame] at hcounts
    rw [hm, ← UInt64.ofNat_add, ← hcounts, UInt64.ofNat_add] at hstep
    exact (UInt64.add_left_inj _).1 hstep
  refine ⟨hcount h.received hreceived, hcount h.matched hmatched, hcount h.unmatched hunmatched,
    fun s => ?_⟩
  exact (hended s).trans ((h.ended s).trans (congrArg _ (hendedAs s).symm))

theorem endedAs_spawn (t : Traffic) (p : Pipeline) (s : Status) :
    (t.spawn p).endedAs s = t.endedAs s := by
  rw [endedAs, spawn, List.countP_append, List.countP_singleton, endedAs]; rfl

theorem Counted.finish (h : Counted t) {i : Nat} {p : Pipeline} (hl : t.pipelines[i]? = some ⟨p, none⟩)
    (o : Outcome) :
    Counted { t with
      engine := t.engine.finish o.status, pipelines := t.pipelines.set i ⟨p, some o⟩ } := by
  have hsame (s : Status) : (t.engine.finish s).metrics.received = t.engine.metrics.received ∧
      (t.engine.finish s).metrics.matched = t.engine.metrics.matched ∧
      (t.engine.finish s).metrics.unmatched = t.engine.metrics.unmatched := by
    cases s <;> exact ⟨rfl, rfl, rfl⟩
  obtain ⟨hreceived, hmatched, hunmatched⟩ := hsame o.status
  refine ⟨hreceived.trans h.received, hmatched.trans h.matched, hunmatched.trans h.unmatched,
    fun s => ?_⟩
  have hcounts := countP_set_add (p := fun l : Launched => l.outcome?.any (·.status == s)) hl
    ⟨p, some o⟩
  rw [Engine.finish, Metrics.ended_countEnded, h.ended]
  change _ = UInt64.ofNat ((t.pipelines.set i ⟨p, some o⟩).countP _)
  rw [Option.any_none, Bool.toNat_false, Nat.add_zero, Option.any_some] at hcounts
  rw [hcounts]
  by_cases hs : o.status = s
  · rw [if_pos hs, beq_iff_eq.2 hs, Bool.toNat_true, UInt64.ofNat_add]; rfl
  · rw [if_neg hs, beq_eq_false_iff_ne.2 hs, Bool.toNat_false, Nat.add_zero]; rfl

/-- **Each step counts what it does.** -/
theorem Counted.step (h : Counted t) (hs : Step changes t u) : Counted u := by
  cases hs with
  | send | senders | stop | change => exact ⟨h.received, h.matched, h.unmatched, h.ended⟩
  | @take e queue => exact h.accept (u := { t with queue }) rfl rfl rfl e
  | @hand e => exact h.accept (u := { t with handed := t.handed + 1 }) rfl rfl rfl e
  | receive hd =>
    exact h.enter hd rfl (UInt64.add_zero _) rfl rfl (fun _ => rfl) fun _ => rfl
  | look hd | finishDispatch hd => exact h.enter hd rfl rfl rfl rfl (fun _ => rfl) fun _ => rfl
  | miss hd =>
    exact h.enter hd rfl rfl rfl (UInt64.add_zero _) (fun s => by cases s <;> rfl) fun _ => rfl
  | hit _ hd =>
    exact h.enter hd rfl rfl (UInt64.add_zero _) rfl (fun s => by cases s <;> rfl) fun _ => rfl
  | spawn hd => exact h.enter hd rfl rfl rfl rfl (fun _ => rfl) (endedAs_spawn t _)
  | @advance i l hl =>
    refine ⟨h.received, h.matched, h.unmatched, fun s => (h.ended s).trans (congrArg _ ?_)⟩
    have hcounts := countP_set_add (p := fun l : Launched => l.outcome?.any (·.status == s)) hl
      { l with pipeline := (l.pipeline.step t.engine.surroundings).1 }
    exact (Nat.add_right_cancel hcounts).symm
  | finish hl => exact h.finish hl _

/-! ## The counts -/

/-- A pipeline that is counted has ended in one of three ways. -/
theorem endedAs_add (t : Traffic) :
    t.endedAs .done + t.endedAs .notLaunched + t.endedAs .error =
      t.pipelines.countP fun l => l.outcome?.isSome := by
  rw [endedAs, endedAs, endedAs]
  induction t.pipelines with
  | nil => rfl
  | cons l ls ih =>
    obtain ⟨p, _ | ⟨event, reaction, status, steps, error?⟩⟩ := l
    · simpa using ih
    · cases status <;> simp <;> omega

/-- An event is counted as matched or unmatched, not as both. -/
theorem hits_add_misses (t : Traffic) :
    t.dispatched isHit + t.dispatched isMiss =
      t.dispatched fun phase => phase.isHit || phase.isMiss := by
  rw [dispatched, dispatched, dispatched]
  induction t.dispatches with
  | nil => rfl
  | cons d ds ih =>
    have hone : d.phase.isHit = false ∨ d.phase.isMiss = false := by
      obtain ⟨event, _ | _ | _ | _ | (_ | _)⟩ := d <;> simp [isHit, isMiss]
    rw [List.countP_cons, List.countP_cons, List.countP_cons]
    rcases hone with h | h <;> simp only [h, Bool.false_or, Bool.or_false, Bool.false_eq_true,
      if_false] <;> omega

/-- What is counted as matched or unmatched is counted as received. -/
theorem hits_add_misses_le (t : Traffic) :
    t.dispatched isHit + t.dispatched isMiss ≤ t.dispatched isBegun := by
  rw [hits_add_misses]
  refine dispatched_mono fun phase h => ?_
  cases phase with
  | waiting => cases h
  | _ => rfl

/-- Once dispatches are over, their events are counted as matched or unmatched. -/
theorem hits_add_misses_of_over (hend : ∀ d ∈ t.dispatches, d.phase.isEnded = true) :
    t.dispatched isHit + t.dispatched isMiss = t.dispatches.length := by
  rw [hits_add_misses]
  refine List.countP_eq_length.2 fun d hd => ?_
  have h := hend d hd
  obtain ⟨event, _ | _ | _ | _ | (_ | _)⟩ := d <;> first | rfl | cases h

theorem conserved_start {buffer : Nat} {queue : Queue} (hq : Queue.new? buffer = some queue)
    (engine : Engine) : Conserved (.start engine queue) ∧ queue.capacity = max 1 buffer := by
  rw [Queue.new?] at hq
  split at hq
  · cases hq; exact ⟨⟨Nat.zero_le _, rfl, nofun⟩, rfl⟩
  · cases hq

theorem counted_start {engine : Engine} (hm : engine.metrics = .zero) (queue : Queue) :
    Counted (.start engine queue) := by
  refine ⟨?_, ?_, ?_, fun s => ?_⟩
  · exact congrArg Metrics.received hm
  · exact congrArg Metrics.matched hm
  · exact congrArg Metrics.unmatched hm
  · rw [show (start engine queue).engine.metrics = .zero from hm]; cases s <;> rfl

/-- What the counts say that are made with fewer than `2 ^ 64` events and
    pipelines. -/
theorem Counted.toNat (h : Counted t) (hevents : t.dispatches.length < UInt64.size)
    (hpipelines : t.pipelines.length < UInt64.size) :
    t.engine.metrics.received.toNat = t.dispatched isBegun ∧
      t.engine.metrics.matched.toNat = t.dispatched isHit ∧
      t.engine.metrics.unmatched.toNat = t.dispatched isMiss ∧
      ∀ s, (t.engine.metrics.ended s).toNat = t.endedAs s := by
  have hdispatched (p : DispatchPhase → Bool) :
      (UInt64.ofNat (t.dispatched p)).toNat = t.dispatched p :=
    UInt64.toNat_ofNat_of_lt' (Nat.lt_of_le_of_lt List.countP_le_length hevents)
  refine ⟨?_, ?_, ?_, fun s => ?_⟩
  · rw [h.received, hdispatched]
  · rw [h.matched, hdispatched]
  · rw [h.unmatched, hdispatched]
  · rw [h.ended]
    exact UInt64.toNat_ofNat_of_lt' (Nat.lt_of_le_of_lt List.countP_le_length hpipelines)

/-- **No event is lost or counted twice.**  Whatever senders, the event loop,
    dispatches and pipelines have done, and however the active reactions have
    changed: each event that was sent or handed in is in the queue, is yet to be
    dispatched, or is counted as received; none is counted twice as matched or
    unmatched, and no pipeline is counted twice.  The loop stops only when
    nothing can come any more, and once all is over all is counted. -/
theorem events_accounted {engine : Engine} {buffer : Nat} {queue : Queue} {t : Traffic}
    (hq : Queue.new? buffer = some queue) (hm : engine.metrics = .zero)
    (ht : Leads (fun _ _ => True) (.start engine queue) t) (hevents : t.sent + t.handed < UInt64.size)
    (hpipelines : t.pipelines.length < UInt64.size) :
    t.queue.events.length ≤ max 1 buffer ∧
      t.sent + t.handed = t.queue.events.length + t.dispatched (fun phase => !phase.isBegun) +
        t.engine.metrics.received.toNat ∧
      t.engine.metrics.matched.toNat + t.engine.metrics.unmatched.toNat ≤
        t.engine.metrics.received.toNat ∧
      t.engine.metrics.done.toNat + t.engine.metrics.notLaunched.toNat +
        t.engine.metrics.failed.toNat ≤ t.pipelines.length ∧
      (t.stopped = true → t.queue.events = [] ∧ t.queue.senders = 0) ∧
      (t.stopped = true → (∀ d ∈ t.dispatches, d.phase.isEnded = true) →
        (∀ l ∈ t.pipelines, l.outcome?.isSome = true) →
        t.engine.metrics.received.toNat =
            t.engine.metrics.matched.toNat + t.engine.metrics.unmatched.toNat ∧
          t.engine.metrics.received.toNat = t.sent + t.handed ∧
          t.engine.metrics.done.toNat + t.engine.metrics.notLaunched.toNat +
            t.engine.metrics.failed.toNat = t.pipelines.length) := by
  obtain ⟨hstart, hbuffer⟩ := conserved_start hq engine
  have hconserved : Conserved t := ht.keeps (P := Conserved) Conserved.step hstart
  have hcounted : Counted t := ht.keeps (P := Counted) Counted.step (counted_start hm queue)
  have hcapacity : t.queue.capacity = max 1 buffer :=
    ht.keeps (P := fun u => u.queue.capacity = max 1 buffer)
      (fun h hs => (capacity_step hs).trans h) hbuffer
  obtain ⟨hfits, hkept, hstopped⟩ := hconserved
  obtain ⟨hreceived, hmatched, hunmatched, hended⟩ := hcounted.toNat (by omega) hpipelines
  have hdone : t.engine.metrics.done.toNat = t.endedAs .done := hended .done
  have hnotLaunched : t.engine.metrics.notLaunched.toNat = t.endedAs .notLaunched :=
    hended .notLaunched
  have hfailed : t.engine.metrics.failed.toNat = t.endedAs .error := hended .error
  have hbegun := dispatched_add_not t isBegun
  have hcounts := hits_add_misses_le t
  rw [hreceived, hmatched, hunmatched, hdone, hnotLaunched, hfailed, endedAs_add]
  refine ⟨hcapacity ▸ hfits, by omega, hcounts, List.countP_le_length,
    fun h => isExhausted_iff.1 (hstopped h), fun hstop hend hall => ?_⟩
  have hlength := hits_add_misses_of_over hend
  have hle : t.dispatched isBegun ≤ t.dispatches.length := List.countP_le_length
  rw [(isExhausted_iff.1 (hstopped hstop)).1, List.length_nil] at hkept
  refine ⟨by omega, by omega, List.countP_eq_length.2 hall⟩

/-- An event that is sent, the last sender gone, dispatched, and its pipeline
    ended. -/
theorem events_accounted_bell :
    let bell : Reaction := ⟨"bell", "door", "ring", []⟩
    let engine : Engine := { Engine.new .actions .sources fun _ _ _ => .ok .stop with
      store := ⟨[("door", [bell])]⟩ }
    let t : Traffic := ⟨{ engine with metrics := ⟨1, 1, 0, 0, 1, 0⟩ }, ⟨1, [], 0⟩, true,
      [⟨⟨"door", []⟩, .ended (.launched [0])⟩],
      [⟨⟨⟨"door", []⟩, bell, .notLaunched, [], .ended none⟩,
        some ⟨"door", "bell", .notLaunched, [], none⟩⟩], 1, 0⟩
    Queue.new? 1 = some ⟨1, [], 1⟩ ∧ engine.metrics = .zero ∧
      Leads (fun _ _ => True) (.start engine ⟨1, [], 1⟩) t ∧ t.sent + t.handed < UInt64.size ∧
      t.pipelines.length < UInt64.size ∧
      t.engine.metrics.received.toNat = t.sent + t.handed ∧
      t.engine.metrics.done.toNat + t.engine.metrics.notLaunched.toNat +
        t.engine.metrics.failed.toNat = t.pipelines.length := by
  intro bell engine t
  have hmoves : (start engine ⟨1, [], 1⟩).moves? [.send ⟨"door", []⟩, .leave, .take, .stop,
      .dispatch 0, .dispatch 0, .dispatch 0, .dispatch 0, .dispatch 0, .advance 0, .advance 0,
      .finish 0] = some t := rfl
  have ht : Leads (fun _ _ => True) (.start engine ⟨1, [], 1⟩) t :=
    leads_of_moves? (by simp) hmoves
  have hqueue : Queue.new? 1 = some ⟨1, [], 1⟩ := rfl
  have hall := events_accounted hqueue rfl ht (by decide) (by decide)
  obtain ⟨-, hreceived, hended⟩ := hall.2.2.2.2.2 rfl (by simp [t, isEnded]) (by simp [t])
  exact ⟨hqueue, rfl, ht, by decide, by decide, hreceived, hended⟩

end Traffic

end Reactor
