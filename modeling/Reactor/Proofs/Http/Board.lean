/-
  Handlers as jobs.

  * `Service.board` has the reactions of a service, by key, and `Service.Sound`
    says that its storage can be read;
  * `Part` are the handlers of requests and what is left of them;
  * `Part.step`: a call of such a handler takes effect on the board as its job
    says.
-/
import Reactor.Proofs.Http.Access
import Reactor.Proofs.Http.Answer
import Reactor.Proofs.Http.Jobs

namespace Reactor.Http

/-- What the next call of a handler is to do to a reaction. -/
def Handler.job : Handler → Job
  | .call (.create r) _ => .create r
  | .call (.activate r) _ => .activate r
  | .call (.deactivate event name) _ => .deactivate (event, name)
  | .call (.fetch event name) _ => .fetch (event, name)
  | .call (.delete event name) _ => .erase (event, name)
  | _ => .none

namespace Service

/-- The active reactions, and those that can be read from the storage. -/
def board (s : Service) : Board where
  active k := s.engine.store.find? k.1 k.2
  persisted k := (s.storage.find? k.1 k.2).bind fun row => row.reaction.toOption

/-- Active reactions and rows are as their operations leave them, and every row
    can be read. -/
structure Sound (s : Service) : Prop where
  store : s.engine.store.Valid
  storage : s.storage.Valid
  readable : ∀ row ∈ s.storage.rows, ∃ r, row.reaction = .ok r

variable {s : Service}

theorem board_congr {t : Service} (hstore : t.engine.store = s.engine.store)
    (hstorage : t.storage = s.storage) : t.board = s.board := by
  unfold board
  rw [hstore, hstorage]

theorem Sound.congr {t : Service} (hs : s.Sound) (hstore : t.engine.store = s.engine.store)
    (hstorage : t.storage = s.storage) : t.Sound :=
  ⟨hstore ▸ hs.store, hstorage ▸ hs.storage, hstorage ▸ hs.readable⟩

theorem active_iff {e n : String} {r : Reaction} :
    s.board.active (e, n) = some r ↔ s.engine.store.get e n = .ok r :=
  Store.get_eq_ok.symm

theorem persisted_iff {e n : String} {r : Reaction} :
    s.board.persisted (e, n) = some r ↔ s.storage.get e n = .ok (some r) := by
  rw [Storage.get_eq_ok, board, Option.bind_eq_some_iff]
  refine exists_congr fun row => and_congr_right fun _ => ?_
  cases row.reaction <;> simp [Except.toOption]

theorem Sound.persisted_eq_none (hs : s.Sound) {e n : String} :
    s.board.persisted (e, n) = none ↔ s.storage.find? e n = none := by
  show (s.storage.find? e n).bind _ = none ↔ _
  cases hf : s.storage.find? e n with
  | none => exact ⟨fun _ => rfl, fun _ => rfl⟩
  | some row =>
    obtain ⟨r, hr⟩ := hs.readable row ((Storage.find?_eq_some hs.storage).1 hf).1
    simp [hr, Except.toOption]

theorem persisted_key {k : Key} {r : Reaction} (h : s.board.persisted k = some r) : r.key = k := by
  obtain ⟨row, hrow, hr⟩ := Option.bind_eq_some_iff.1 h
  have hr : row.reaction = .ok r := by
    cases h : row.reaction with
    | error e => rw [h] at hr; cases hr
    | ok r' => rw [h] at hr; exact congrArg Except.ok (Option.some.inj hr)
  exact (Row.reaction_ok hr).1.trans (Storage.find?_key hrow)

/-! ## Calls on the board -/

theorem Sound.created (hs : s.Sound) {r : Reaction} (hr : Proper r) {t : Storage}
    (h : s.storage.create s.now r = .ok t) :
    Sound { s with storage := t } ∧
      board { s with storage := t } = s.board.persist r.key (some r) := by
  have hread : (s.storage.rowOf s.now r).reaction = .ok r := by
    rw [Storage.reaction_rowOf hr.sorted, hr.named]
  refine ⟨⟨hs.store, hs.storage.create h, fun row hrow => ?_⟩, ?_⟩
  · obtain ⟨-, rfl⟩ := Storage.create_eq_ok.1 h
    rcases List.mem_append.1 hrow with hrow | hrow
    · exact hs.readable row hrow
    · exact ⟨r, List.mem_singleton.1 hrow ▸ hread⟩
  · refine congrArg (Board.mk _) (funext fun k => ?_)
    rw [Storage.find?_create h, Function.update_apply]
    by_cases hk : k.1 = r.event ∧ k.2 = r.name
    · rw [if_pos hk, if_pos (Prod.ext hk.1 hk.2)]
      simp [hread, Except.toOption]
    · rw [if_neg hk, if_neg fun h => hk ⟨congrArg Prod.fst h, congrArg Prod.snd h⟩]
      rfl

theorem Sound.deleted (hs : s.Sound) {e n : String} {t : Storage}
    (h : s.storage.delete e n = .ok t) :
    Sound { s with storage := t } ∧
      board { s with storage := t } = s.board.persist (e, n) none := by
  refine ⟨⟨hs.store, hs.storage.delete h, fun row hrow => ?_⟩, ?_⟩
  · obtain ⟨-, rfl⟩ := Storage.delete_eq_ok.1 h
    exact hs.readable row (List.mem_of_mem_filter hrow)
  · refine congrArg (Board.mk _) (funext fun k => ?_)
    rw [Storage.find?_delete h, Function.update_apply]
    by_cases hk : k.1 = e ∧ k.2 = n
    · rw [if_pos hk, if_pos (Prod.ext hk.1 hk.2)]; rfl
    · rw [if_neg hk, if_neg fun h => hk ⟨congrArg Prod.fst h, congrArg Prod.snd h⟩]; rfl

theorem Sound.activated (hs : s.Sound) {r : Reaction} {t : Store}
    (h : s.engine.store.add r = .ok t) :
    (s.withStore t).Sound ∧ (s.withStore t).board = s.board.activate r.key (some r) := by
  refine ⟨⟨hs.store.add h, hs.storage, hs.readable⟩, ?_⟩
  refine congrArg (Board.mk · _) (funext fun k => ?_)
  show t.find? k.1 k.2 = _
  rw [Store.find?_add hs.store h, Function.update_apply]
  by_cases hk : k.1 = r.event ∧ k.2 = r.name
  · rw [if_pos hk, if_pos (Prod.ext hk.1 hk.2)]
  · rw [if_neg hk, if_neg fun h => hk ⟨congrArg Prod.fst h, congrArg Prod.snd h⟩]; rfl

theorem Sound.deactivated (hs : s.Sound) {e n : String} {r : Reaction} {t : Store}
    (h : s.engine.store.remove e n = .ok (r, t)) :
    (s.withStore t).Sound ∧ (s.withStore t).board = s.board.activate (e, n) none := by
  refine ⟨⟨hs.store.remove h, hs.storage, hs.readable⟩, ?_⟩
  refine congrArg (Board.mk · _) (funext fun k => ?_)
  show t.find? k.1 k.2 = _
  rw [Store.find?_remove hs.store h, Function.update_apply]
  by_cases hk : k.1 = e ∧ k.2 = n
  · rw [if_pos hk, if_pos (Prod.ext hk.1 hk.2)]
  · rw [if_neg hk, if_neg fun h => hk ⟨congrArg Prod.fst h, congrArg Prod.snd h⟩]; rfl

end Service

/-! ## Handlers -/

/-- The handlers of requests, and what is left of them. -/
inductive Part : Handler → Prop
  | quiet {h : Handler} : h.Quiet → Part h
  | create {r : Reaction} : Proper r → Part (.call (.create r) (Reactions.afterCreate r))
  | activate {r : Reaction} : Proper r → Part (.call (.activate r) (Reactions.afterActivate r))
  | rollBack {e n : String} {f : ApiError} : Part (.call (.delete e n) fun _ => .refuse f)
  | deactivate {e n : String} : Part (Reactions.delete e n)
  | fetch {e n : String} {f : StoreError} : Part (.call (.fetch e n) (Reactions.afterFetch e n f))
  | erase {e n : String} : Part (Reactions.erase e n)

theorem part_of_handled {h : Handler} (hh : Handled h) : Part h := by
  rcases hh with hq | ⟨r, hr, rfl⟩ | ⟨e, n, rfl⟩
  · exact .quiet hq
  · exact .create hr
  · exact .deactivate

theorem job_of_quiet {h : Handler} (hq : h.Quiet) : h.job = .none := by
  cases h with
  | reply r => rfl
  | call a next =>
    cases a with
    | create | delete | fetch | activate | deactivate => exact hq.1.elim
    | list | launch | view | uptime => rfl

/-- What a request begins with. -/
theorem job_of_handled {h : Handler} (hh : Handled h) :
    h.job = .none ∨ (∃ r, Proper r ∧ h.job = .create r) ∨ ∃ k, h.job = .deactivate k := by
  rcases hh with hq | ⟨r, hr, rfl⟩ | ⟨e, n, rfl⟩
  · exact Or.inl (job_of_quiet hq)
  · exact Or.inr (Or.inl ⟨r, hr, rfl⟩)
  · exact Or.inr (Or.inr ⟨(e, n), rfl⟩)

theorem handled_of_create {h : Handler} (hh : Handled h) {r : Reaction} (hj : h.job = .create r) :
    Proper r ∧ h = .call (.create r) (Reactions.afterCreate r) := by
  rcases hh with hq | ⟨r', hr, rfl⟩ | ⟨e, n, rfl⟩
  · rw [job_of_quiet hq] at hj; cases hj
  · cases hj; exact ⟨hr, rfl⟩
  · cases hj

theorem handled_of_deactivate {h : Handler} (hh : Handled h) {k : Key}
    (hj : h.job = .deactivate k) : h = Reactions.delete k.1 k.2 := by
  rcases hh with hq | ⟨r, hr, rfl⟩ | ⟨e, n, rfl⟩
  · rw [job_of_quiet hq] at hj; cases hj
  · cases hj
  · cases hj; rfl

variable {s : Service}

theorem step_call {α : Type} (a : Access α) (next : α → Handler) (s : Service) :
    (Handler.call a next).step s = (next (a.run s).1, (a.run s).2) := rfl

/-- A step of a handler keeps what is sound, leaves a part of a handler, and
    takes effect as its job says. -/
def Simulates (h : Handler) (s : Service) (p : Handler × Service) : Prop :=
  Part p.1 ∧ p.2.Sound ∧ Effect h.job s.board p.1.job p.2.board

theorem step_create (hs : s.Sound) {r : Reaction} (hr : Proper r) :
    Simulates (.call (.create r) (Reactions.afterCreate r)) s
      ((Handler.call (.create r) (Reactions.afterCreate r)).step s) := by
  rw [step_call]
  rcases Access.run_create r s with ⟨t, hc, hrun⟩ | ⟨row, hf, hrun⟩
  · obtain ⟨hsound, hboard⟩ := hs.created hr hc
    have hnone := hs.persisted_eq_none.2 (Storage.create_eq_ok.1 hc).1
    rw [hrun]
    exact ⟨.activate hr, hsound, hboard ▸ .created hnone⟩
  · have hsome : s.board.persisted r.key ≠ none := by
      rw [Reaction.key, ne_eq, hs.persisted_eq_none, hf]; exact nofun
    rw [hrun]
    exact ⟨.quiet trivial, hs, .notCreated hsome⟩

theorem step_activate (hs : s.Sound) {r : Reaction} (hr : Proper r) :
    Simulates (.call (.activate r) (Reactions.afterActivate r)) s
      ((Handler.call (.activate r) (Reactions.afterActivate r)).step s) := by
  rw [step_call]
  rcases Access.run_activate r s with ⟨t, ha, hrun⟩ | ⟨r', hf, hrun⟩
  · rw [hr.named] at ha
    obtain ⟨hsound, hboard⟩ := hs.activated ha
    rw [hrun]
    exact ⟨.quiet trivial, hsound, hboard ▸ .activated (Store.add_eq_ok.1 ha).1⟩
  · have hsome : s.board.active r.key ≠ none := by
      show s.engine.store.find? r.event r.name ≠ none
      rw [hf]; exact nofun
    rw [hrun]
    exact ⟨.rollBack, hs, .notActivated hsome⟩

theorem step_delete (hs : s.Sound) (e n : String) {next : Except ServiceError Unit → Handler}
    (hnext : ∀ x, (next x).Quiet) :
    Simulates (.call (.delete e n) next) s ((Handler.call (.delete e n) next).step s) := by
  rw [step_call]
  have hafter (x) : (next x).job = .none := job_of_quiet (hnext x)
  rcases Access.run_delete e n s with ⟨t, hd, hrun⟩ | ⟨hnone, hrun⟩
  · obtain ⟨hsound, hboard⟩ := hs.deleted hd
    rw [hrun]
    refine ⟨.quiet (hnext _), hsound, ?_⟩
    rw [hafter, hboard]
    exact .erased
  · have hsame : s.board.persist (e, n) none = s.board := by
      rw [Board.persist, ← hs.persisted_eq_none.2 hnone, Function.update_eq_self]
    rw [hrun]
    refine ⟨.quiet (hnext _), hs, ?_⟩
    have heffect : Effect (.erase (e, n)) s.board .none (s.board.persist (e, n) none) := .erased
    rw [hafter]
    rwa [hsame] at heffect

theorem step_deactivate (hs : s.Sound) (e n : String) :
    Simulates (Reactions.delete e n) s ((Reactions.delete e n).step s) := by
  rw [Reactions.delete, step_call]
  rcases Access.run_deactivate e n s with ⟨r, t, hr, hrun⟩ | ⟨hnone, f, hf, hrun⟩
  · obtain ⟨hsound, hboard⟩ := hs.deactivated hr
    have hsome : s.board.active (e, n) ≠ none := by
      show s.engine.store.find? e n ≠ none
      rw [(Store.remove_eq_ok.1 hr).1]; exact nofun
    rw [hrun]
    exact ⟨.erase, hsound, hboard ▸ .deactivated hsome⟩
  · rw [hrun, afterDeactivate_error hf]
    exact ⟨.fetch, hs, .notDeactivated hnone⟩

theorem step_fetch (hs : s.Sound) (e n : String) (f : StoreError) :
    Simulates (.call (.fetch e n) (Reactions.afterFetch e n f)) s
      ((Handler.call (.fetch e n) (Reactions.afterFetch e n f)).step s) := by
  rw [step_call, Access.run]
  cases hp : s.board.persisted (e, n) with
  | none =>
    have hget : s.storage.get e n = .ok none := Storage.get_eq_ok.2 (hs.persisted_eq_none.1 hp)
    rw [hget]
    exact ⟨.quiet trivial, hs, .notFound hp⟩
  | some r =>
    rw [Service.persisted_iff.1 hp]
    exact ⟨.erase, hs, .found (hp ▸ Option.some_ne_none r)⟩

theorem afterErase_quiet (x : Except ServiceError Unit) : (Reactions.afterErase x).Quiet := by
  unfold Reactions.afterErase
  split <;> trivial

/-- **A call of a handler takes effect as its job says.** -/
theorem Part.step {h : Handler} (hp : Part h) (hs : s.Sound) : Simulates h s (h.step s) := by
  cases hp with
  | quiet hq =>
    obtain ⟨hq', hstore, hstorage⟩ := hq.step s
    refine ⟨.quiet hq', hs.congr hstore hstorage, ?_⟩
    rw [job_of_quiet hq, job_of_quiet hq', Service.board_congr hstore hstorage]
    exact .none
  | create hr => exact step_create hs hr
  | activate hr => exact step_activate hs hr
  | rollBack => exact step_delete hs _ _ fun _ => trivial
  | deactivate => exact step_deactivate hs _ _
  | fetch => exact step_fetch hs _ _ _
  | erase => exact step_delete hs _ _ afterErase_quiet

/-! ## Handlers without a break -/

theorem run_activate (hs : s.Sound) {r : Reaction} (hr : Proper r) {t : Service}
    (hnone : s.board.active r.key = none)
    (ht : ((Handler.call (.activate r) (Reactions.afterActivate r)).run s).2 = t) :
    t.Sound ∧ t.board = s.board.activate r.key (some r) := by
  rw [Handler.run_call] at ht
  rcases Access.run_activate r s with ⟨u, ha, hrun⟩ | ⟨r', hf, -⟩
  · rw [hr.named] at ha
    rw [hrun] at ht
    exact ht ▸ hs.activated ha
  · rw [show s.board.active r.key = some r' from hf] at hnone
    cases hnone

theorem run_erase (hs : s.Sound) (e n : String) {t : Service}
    (ht : ((Reactions.erase e n).run s).2 = t) :
    t.Sound ∧ t.board = s.board.persist (e, n) none := by
  obtain ⟨-, hsound, heffect⟩ := step_delete hs e n afterErase_quiet
  obtain ⟨hstore, hstorage⟩ := (afterErase_quiet ((Access.delete e n).run s).1).run
    ((Access.delete e n).run s).2
  subst ht
  refine ⟨hsound.congr hstore hstorage, (Service.board_congr hstore hstorage).trans ?_⟩
  exact heffect.of_erase

theorem run_delete_active (hs : s.Sound) {e n : String} {t : Service}
    (hactive : s.board.active (e, n) ≠ none) (ht : ((Reactions.delete e n).run s).2 = t) :
    t.Sound ∧ t.board = (s.board.activate (e, n) none).persist (e, n) none := by
  rw [Reactions.delete, Handler.run_call] at ht
  rcases Access.run_deactivate e n s with ⟨r, u, hr, hrun⟩ | ⟨hnone, -⟩
  · obtain ⟨hsound, hboard⟩ := hs.deactivated hr
    rw [hrun] at ht
    exact hboard ▸ run_erase hsound e n ht
  · exact absurd hnone hactive

theorem run_delete_lingering (hs : s.Sound) {e n : String} {r : Reaction} {t : Service}
    (hnone : s.board.active (e, n) = none) (hr : s.board.persisted (e, n) = some r)
    (ht : ((Reactions.delete e n).run s).2 = t) :
    t.Sound ∧ t.board = s.board.persist (e, n) none := by
  rw [Reactions.delete, Handler.run_call] at ht
  rcases Access.run_deactivate e n s with ⟨r', u, hr', -⟩ | ⟨-, f, hf, hrun⟩
  · rw [show s.board.active (e, n) = some r' from (Store.remove_eq_ok.1 hr').1] at hnone
    cases hnone
  · rw [hrun, afterDeactivate_error hf, Handler.run_call, Access.run, Service.persisted_iff.1 hr] at ht
    exact run_erase hs e n ht

end Reactor.Http
