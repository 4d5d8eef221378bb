/-
  The storage mirrors the active reactions.

  * `Service.Mirrored` is the invariant: the rows of each event are in the order
    in which they were written and hold the active reactions to it;
  * `Mirrored.answer` and `Mirrored.restart`: an answered request and a restart
    keep it, `Mirrored.after`: so does a whole history;
  * `mirrors_after`: whatever is asked and whenever the service starts anew,
    the storage gives the active reactions, and in the same order.
-/
import Reactor.Proofs.Http.Access
import Reactor.Proofs.Http.Answer
import Reactor.Proofs.Http.History

namespace Reactor.Http

/-- The rows of each event hold the active reactions to it, in order. -/
structure Service.Mirrored (s : Service) : Prop where
  store : s.engine.store.Valid
  ordered : s.storage.Ordered
  holds : ∀ e, s.storage.Holds e (s.engine.store.matchesFor e)

namespace Service.Mirrored

variable {s : Service}

theorem new (actions : Registry ActionModule) (sources : Registry EventSource)
    (evaluate : Evaluator) : (Service.new actions sources evaluate).Mirrored :=
  ⟨Store.valid_empty, Storage.ordered_empty, Storage.holds_empty⟩

/-- Only the active reactions and the storage matter. -/
theorem congr {t : Service} (hs : s.Mirrored) (hstore : t.engine.store = s.engine.store)
    (hstorage : t.storage = s.storage) : t.Mirrored :=
  ⟨hstore ▸ hs.store, hstorage ▸ hs.ordered, by rw [hstore, hstorage]; exact hs.holds⟩

theorem find?_eq_none (hs : s.Mirrored) {e n : String} :
    s.storage.find? e n = none ↔ s.engine.store.find? e n = none :=
  (hs.holds e).find?_eq_none.trans Store.find?_eq_none.symm

/-! ## Reading -/

theorem forEvent (hs : s.Mirrored) (e : String) :
    s.storage.forEvent e = .ok (s.engine.store.matchesFor e) :=
  Storage.forEvent_eq_ok hs.ordered (hs.holds e)

theorem all (hs : s.Mirrored) : s.storage.all = .ok s.engine.store.all :=
  Storage.all_eq_ok hs.ordered hs.store.sorted hs.holds

theorem map_normalize (hs : s.Mirrored) :
    s.engine.store.all.map Reaction.normalize = s.engine.store.all := by
  rw [Store.all, List.map_flatMap]
  refine List.flatMap_congr fun f hf => ?_
  rw [← (Store.event_of_mem hs.store hf).1]
  exact (hs.holds f.1).map_normalize

/-- **A restart takes over all active reactions.** -/
theorem restart (hs : s.Mirrored) :
    ∃ t, s.restart = .ok t ∧ t.engine.store = s.engine.store ∧ t.storage = s.storage := by
  let fresh := Engine.new s.engine.actions s.engine.sources s.engine.evaluate
  refine ⟨{ s with engine := (fresh.seed s.engine.store.all).2, running := [], uptime := 0 },
    by rw [Service.restart, hs.all]; rfl, ?_, rfl⟩
  show (Store.empty.seed (s.engine.store.all.map Reaction.normalize)).2 = s.engine.store
  rw [hs.map_normalize, Store.seed_all hs.store]

/-! ## Changing -/

theorem create (hs : s.Mirrored) {r : Reaction} (hr : Proper r)
    (hpast : ∀ row ∈ s.storage.rows, row.createdAt ≤ s.now) {t : Service}
    (ht : ((Handler.call (.create r) (Reactions.afterCreate r)).run s).2 = t) :
    t.Mirrored ∧ ∀ row ∈ t.storage.rows, row ∈ s.storage.rows ∨ row.createdAt = s.now := by
  rw [Handler.run_call] at ht
  rcases Access.run_create r s with ⟨u, hc, hrun⟩ | ⟨row, -, hrun⟩
  · have hnone := hs.find?_eq_none.1 (Storage.create_eq_ok.1 hc).1
    rw [hrun, Reactions.afterCreate, Handler.run_call] at ht
    rcases Access.run_activate r { s with storage := u } with ⟨v, ha, hrun⟩ | ⟨r', hf, -⟩
    · rw [hrun] at ht
      subst ht
      have ha : s.engine.store.add r = .ok v := by rwa [hr.named] at ha
      refine ⟨⟨hs.store.add ha, hs.ordered.create hpast hc, fun e => ?_⟩, fun row hrow => ?_⟩
      · show u.Holds e (v.matchesFor e)
        rw [Store.matchesFor_add hs.store ha]
        have hholds := (hs.holds e).create hr.sorted hc
        rwa [hr.named] at hholds
      · obtain ⟨-, rfl⟩ := Storage.create_eq_ok.1 hc
        rcases List.mem_append.1 hrow with h | h
        · exact Or.inl h
        · exact Or.inr (congrArg Row.createdAt (List.mem_singleton.1 h))
    · rw [show s.engine.store.find? r.event r.name = some r' from hf] at hnone
      cases hnone
  · rw [hrun] at ht
    subst ht
    exact ⟨hs, fun _ => Or.inl⟩

theorem delete (hs : s.Mirrored) {e n : String} {t : Service}
    (ht : ((Reactions.delete e n).run s).2 = t) :
    t.Mirrored ∧ ∀ row ∈ t.storage.rows, row ∈ s.storage.rows := by
  rw [Reactions.delete, Handler.run_call] at ht
  rcases Access.run_deactivate e n s with ⟨r, u, hr, hrun⟩ | ⟨hnone, f, hf, hrun⟩
  · rw [hrun, Reactions.afterDeactivate, Reactions.erase, Handler.run_call] at ht
    rcases Access.run_delete e n (s.withStore u) with ⟨v, hd, hrun⟩ | ⟨hnone, -⟩
    · rw [hrun] at ht
      subst ht
      refine ⟨⟨hs.store.remove hr, hs.ordered.delete hd, fun e' => ?_⟩, ?_⟩
      · show v.Holds e' (u.matchesFor e')
        rw [Store.matchesFor_remove hs.store hr]
        have hholds := (hs.holds e').delete hd
        by_cases he : e' = e
        · subst he; exact hholds
        · rwa [if_neg he] at hholds ⊢
      · obtain ⟨-, rfl⟩ := Storage.delete_eq_ok.1 hd
        exact fun row hrow => List.mem_of_mem_filter hrow
    · have hsome := (Store.remove_eq_ok.1 hr).1
      rw [hs.find?_eq_none.1 hnone] at hsome
      cases hsome
  · -- nothing is active, so nothing lingers in the storage either
    have hget : s.storage.get e n = .ok none :=
      Storage.get_eq_ok.2 (hs.find?_eq_none.2 hnone)
    rw [hrun, afterDeactivate_error hf, Handler.run_call, Access.run, hget] at ht
    subst ht
    exact ⟨hs, fun _ => id⟩

/-! ## Histories -/

theorem take (hs : s.Mirrored) (turn : Turn)
    (hpast : ∀ now ∈ turn.reading?, ∀ row ∈ s.storage.rows, row.createdAt ≤ now) :
    ∃ t, turn.take s = .ok t ∧ t.Mirrored ∧
      ∀ row ∈ t.storage.rows, row ∈ s.storage.rows ∨ row.createdAt ∈ turn.reading? := by
  cases turn with
  | restart =>
    obtain ⟨t, ht, hstore, hstorage⟩ := hs.restart
    exact ⟨t, ht, hs.congr hstore hstorage, fun row hrow => Or.inl (hstorage ▸ hrow)⟩
  | request now req =>
    have hs' : Mirrored { s with now } := hs.congr rfl rfl
    refine ⟨_, rfl, ?_⟩
    rcases answer_cases req with hq | ⟨r, hr, ha⟩ | ⟨e, n, ha⟩
    · obtain ⟨hstore, hstorage⟩ := hq.run { s with now }
      exact ⟨hs'.congr hstore hstorage, fun row hrow => Or.inl (hstorage ▸ hrow)⟩
    · have hreading : (Turn.request now req).reading? = some now := by rw [Turn.reading?, ha]
      rw [ha, hreading]
      obtain ⟨ht, hrows⟩ := hs'.create hr (hpast now hreading) rfl
      refine ⟨ht, fun row hrow => (hrows row hrow).imp id fun h => ?_⟩
      exact congrArg some h.symm
    · rw [ha]
      obtain ⟨ht, hrows⟩ := hs'.delete (e := e) (n := n) rfl
      exact ⟨ht, fun row hrow => Or.inl (hrows row hrow)⟩

theorem after : ∀ {turns : List Turn} {s : Service}, s.Mirrored →
    (turns.filterMap Turn.reading?).Pairwise (· ≤ ·) →
    (∀ now ∈ turns.filterMap Turn.reading?, ∀ row ∈ s.storage.rows, row.createdAt ≤ now) →
    ∃ t, s.after turns = .ok t ∧ t.Mirrored
  | [], s, hs, _, _ => ⟨s, rfl, hs⟩
  | turn :: turns, s, hs, hclock, hpast => by
    have hcons : (turn :: turns).filterMap Turn.reading? =
        turn.reading?.toList ++ turns.filterMap Turn.reading? := by
      cases h : turn.reading? <;> simp [h]
    rw [hcons] at hclock hpast
    obtain ⟨-, hclock, hlater⟩ := List.pairwise_append.1 hclock
    obtain ⟨t, ht, hmirrored, hrows⟩ := hs.take turn fun now hnow =>
      hpast now (List.mem_append_left _ (Option.mem_toList.2 hnow))
    obtain ⟨u, hu, hmirrored⟩ := after hmirrored hclock fun now hnow row hrow => by
      rcases hrows row hrow with h | h
      · exact hpast now (List.mem_append_right _ hnow) row h
      · exact hlater _ (Option.mem_toList.2 h) now hnow
    exact ⟨u, by rw [Service.after, ht]; exact hu, hmirrored⟩

end Service.Mirrored

/-- **The storage mirrors the active reactions.**  After every turn of a history
    in which the clock is never set back, it gives the same reactions in the
    same order, and a restart brings back the active ones. -/
theorem mirrors_after (actions : Registry ActionModule) (sources : Registry EventSource)
    (evaluate : Evaluator) {turns : List Turn}
    (hclock : (turns.filterMap Turn.reading?).Pairwise (· ≤ ·)) :
    ∀ done, done <+: turns →
      ∃ s, (Service.new actions sources evaluate).after done = .ok s ∧
        s.storage.all = .ok s.engine.store.all ∧
        (∀ e, s.storage.forEvent e = .ok (s.engine.store.matchesFor e)) ∧
        ∃ t, s.restart = .ok t ∧ t.engine.store.all = s.engine.store.all := by
  intro done hdone
  have hclock' := hclock.sublist (hdone.sublist.filterMap Turn.reading?)
  obtain ⟨s, hs, hmirrored⟩ :=
    (Service.Mirrored.new actions sources evaluate).after hclock' fun _ _ _ h => nomatch h
  obtain ⟨t, ht, hstore, -⟩ := hmirrored.restart
  exact ⟨s, hs, hmirrored.all, hmirrored.forEvent, t, ht, congrArg Store.all hstore⟩

/-- A bell that is hung up, taken down after a restart, and hung up again, all
    in one second. -/
theorem mirrors_after_bell :
    let post : Request := ⟨"POST", "/v1/events/door/reactions", some "application/json",
      "\x7b\"name\":\"bell\"\x7d".toUTF8⟩
    let delete : Request := ⟨"DELETE", "/v1/events/door/reactions/bell", none, .empty⟩
    let turns := [.request 5 post, .restart, .request 5 delete, .request 5 post]
    turns.filterMap Turn.reading? = [5, 5] ∧
      ∃ s, (Service.new .actions .sources fun _ _ _ => .ok .stop).after turns = .ok s ∧
        s.storage.all = .ok s.engine.store.all := by
  intro post delete turns
  have hread : turns.filterMap Turn.reading? = [5, 5] := by decide +kernel
  have hclock : (turns.filterMap Turn.reading?).Pairwise (· ≤ ·) := by rw [hread]; decide
  obtain ⟨s, hs, hall, -⟩ := mirrors_after _ _ _ hclock turns List.prefix_rfl
  exact ⟨hread, s, hs, hall⟩

end Reactor.Http
