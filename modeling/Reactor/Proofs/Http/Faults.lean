/-
  A storage that fails while a request is answered.

  A call on the storage may fail, and then leaves the rows as they are.  A
  creation whose call fails has done nothing yet; a deletion has made its
  reaction inactive before.

  * `Access.fault?` is what a call on the storage gives when it fails, and
    `Handler.runFailing` makes all calls of a handler, of which one may fail;
  * `run_interrupted`: the deletion of an active reaction whose row cannot be
    taken out;
  * `unchanged_iff_not_deactivated`: no other request that is refused leaves
    anything changed;
  * `deactivated_by_failure`: an active bell that can be deleted only halfway.
-/
import Reactor.Proofs.Http.Durability
import Reactor.Proofs.Http.Single

namespace Reactor.Http

/-- What a call on the storage gives when the storage fails; other calls do not
    fail so. -/
def Access.fault? (message : String) {α : Type} : Access α → Option α
  | .create _ | .delete .. => some (.error (.storage message))
  | .fetch .. => some (.error (.storage message))
  | .list _ => some (.error (.storage message))
  | .activate _ | .deactivate .. | .launch _ | .view _ | .uptime => none

/-- Makes a call.  Of the calls on the storage the one that so many others precede
    fails and does nothing, or none does; with how many precede it now. -/
def Access.runFailing (message : String) (at? : Option Nat) {α : Type} (a : Access α)
    (s : Service) : Option Nat × α × Service :=
  match a.fault? message, at? with
  | some x, some 0 => (none, x, s)
  | some _, some (n + 1) => (some n, a.run s)
  | _, _ => (at?, a.run s)

/-- Makes all calls, of which one on the storage may fail, and gives the response. -/
def Handler.runFailing (message : String) : Handler → Option Nat → Service → Response × Service
  | .reply r, _, s => (r, s)
  | .call a next, at?, s =>
    let (at?, x, s) := a.runFailing message at? s
    (next x).runFailing message at? s

/-- Nothing that is active or persisted differs. -/
def Service.SameReactions (s t : Service) : Prop :=
  t.engine.store = s.engine.store ∧ t.storage = s.storage

variable {m : String} {s : Service}

/-! ## Running with a fault -/

theorem Handler.runFailing_call {α : Type} (a : Access α) (next : α → Handler)
    (at? : Option Nat) : (Handler.call a next).runFailing m at? s =
      (next (a.runFailing m at? s).2.1).runFailing m (a.runFailing m at? s).1
        (a.runFailing m at? s).2.2 := rfl

/-- A call fails, or is made. -/
theorem Access.runFailing_cases {α : Type} (a : Access α) (m : String) (at? : Option Nat)
    (s : Service) : (∃ x, a.fault? m = some x ∧ a.runFailing m at? s = (none, x, s)) ∨
      ∃ at'?, a.runFailing m at? s = (at'?, a.run s) := by
  unfold Access.runFailing
  split
  · rename_i x hx
    exact Or.inl ⟨x, hx, rfl⟩
  · exact Or.inr ⟨_, rfl⟩
  · exact Or.inr ⟨_, rfl⟩

/-- A call on the engine is made. -/
theorem Access.runFailing_of_none {α : Type} {a : Access α} (h : a.fault? m = none)
    (at? : Option Nat) : a.runFailing m at? s = (at?, a.run s) := by
  simp only [Access.runFailing, h]

/-- The first call on the storage fails. -/
theorem Access.runFailing_of_some {α : Type} {a : Access α} {x : α} (h : a.fault? m = some x) :
    a.runFailing m (some 0) s = (none, x, s) := by
  simp only [Access.runFailing, h]

/-- Requests that only read change nothing, whether or not a call fails. -/
theorem Handler.Quiet.runFailing : ∀ {h : Handler}, h.Quiet → ∀ (at? : Option Nat) (s : Service),
    s.SameReactions (h.runFailing m at? s).2
  | .reply _, _, _, _ => ⟨rfl, rfl⟩
  | .call a next, hq, at?, s => by
    rw [Handler.runFailing_call]
    rcases a.runFailing_cases m at? s with ⟨x, -, hrun⟩ | ⟨at'?, hrun⟩
    · rw [hrun]
      exact (hq.2 x).runFailing none s
    · rw [hrun]
      obtain ⟨hstore, hstorage⟩ := hq.1.run s
      obtain ⟨hstore', hstorage'⟩ := (hq.2 (a.run s).1).runFailing at'? (a.run s).2
      exact ⟨hstore'.trans hstore, hstorage'.trans hstorage⟩

/-! ## Creating -/

theorem Service.Agrees.find?_eq_none (hs : s.Agrees) {e n : String} :
    s.storage.find? e n = none ↔ s.engine.store.find? e n = none := by
  rw [← hs.sound.persisted_eq_none, hs.board (e, n)]
  rfl

/-- A creation that is refused has changed nothing. -/
theorem create_unchanged (hs : s.Agrees) {r : Reaction} (at? : Option Nat) {resp : Response}
    {t : Service} (hrun : (Handler.call (.create r) (Reactions.afterCreate r)).runFailing m at? s =
      (resp, t)) (hresp : 400 ≤ resp.status) : s.SameReactions t := by
  rw [Handler.runFailing_call] at hrun
  rcases (Access.create r).runFailing_cases m at? s with ⟨x, hx, hcall⟩ | ⟨at'?, hcall⟩
  · cases hx
    rw [hcall] at hrun
    cases hrun
    exact ⟨rfl, rfl⟩
  · rw [hcall] at hrun
    rcases Access.run_create r s with ⟨u, hc, hcreate⟩ | ⟨row, -, hcreate⟩
    · -- nothing was persisted under the key, so nothing is active under it
      have hidle : s.engine.store.find? r.event r.name = none :=
        hs.find?_eq_none.1 (Storage.create_eq_ok.1 hc).1
      rw [hcreate, Reactions.afterCreate, Handler.runFailing_call,
        Access.runFailing_of_none rfl] at hrun
      rcases Access.run_activate r { s with storage := u } with ⟨v, -, hactivate⟩ | ⟨r', hf, -⟩
      · rw [hactivate] at hrun
        cases hrun
        exact absurd hresp (show ¬ 400 ≤ 201 by decide)
      · rw [show s.engine.store.find? r.event r.name = some r' from hf] at hidle
        cases hidle
    · rw [hcreate] at hrun
      cases hrun
      exact ⟨rfl, rfl⟩

/-! ## Deleting -/

variable {e n : String}

/-- A deletion that finds nothing active changes nothing. -/
theorem delete_unchanged (hs : s.Agrees) (hidle : ¬ s.IsActive e n) (at? : Option Nat) :
    s.SameReactions ((Reactions.delete e n).runFailing m at? s).2 := by
  rw [Reactions.delete, Handler.runFailing_call, Access.runFailing_of_none rfl]
  rcases Access.run_deactivate e n s with ⟨r, u, hr, -⟩ | ⟨hnone, f, hf, hrun⟩
  · rw [Service.isActive_iff, (Store.remove_eq_ok.1 hr).1] at hidle
    exact absurd rfl hidle
  · rw [hrun, afterDeactivate_error hf, Handler.runFailing_call]
    rcases (Access.fetch e n).runFailing_cases m at? s with ⟨x, hx, hcall⟩ | ⟨at'?, hcall⟩
    · cases hx
      rw [hcall]
      exact ⟨rfl, rfl⟩
    · have hget : s.storage.get e n = .ok none := Storage.get_eq_ok.2 (hs.find?_eq_none.2 hnone)
      rw [hcall, Access.run, hget]
      exact ⟨rfl, rfl⟩

/-- **A deletion that is interrupted.**  When the row of an active reaction cannot
    be taken out, the reaction is inactive all the same, and its row is still
    there. -/
theorem run_interrupted (hactive : s.IsActive e n) (m : String) :
    ∃ r u, s.engine.store.remove e n = .ok (r, u) ∧
      (Reactions.delete e n).runFailing m (some 0) s =
        ((ApiError.ofService (.storage m)).response, s.withStore u) := by
  rw [Reactions.delete, Handler.runFailing_call, Access.runFailing_of_none rfl]
  rcases Access.run_deactivate e n s with ⟨r, u, hr, hrun⟩ | ⟨hnone, -⟩
  · rw [hrun, Reactions.afterDeactivate, Reactions.erase, Handler.runFailing_call,
      Access.runFailing_of_some rfl]
    exact ⟨r, u, hr, rfl⟩
  · rw [Service.isActive_iff, hnone] at hactive
    cases hactive

theorem changed_of_interrupted (hs : s.engine.store.Valid) (hactive : s.IsActive e n) (m : String) :
    400 ≤ ((Reactions.delete e n).runFailing m (some 0) s).1.status ∧
      ¬ s.SameReactions ((Reactions.delete e n).runFailing m (some 0) s).2 := by
  obtain ⟨r, u, hr, hrun⟩ := run_interrupted hactive m
  rw [hrun]
  refine ⟨show 400 ≤ 500 by decide, fun hsame => ?_⟩
  have hgone := Store.find?_remove hs hr e n
  rw [show u = s.engine.store from hsame.1, if_pos ⟨rfl, rfl⟩, (Store.remove_eq_ok.1 hr).1] at hgone
  cases hgone

/-! ## Requests -/

/-- **Which refused requests leave something changed.**  From a state where the
    same reactions are active and persisted, and whichever call on the storage
    fails, a request that is refused leaves both sides as they were, if and only
    if it is not the deletion of an active reaction. -/
theorem unchanged_iff_not_deactivated (hs : s.Agrees) (req : Request) (m : String) :
    (∀ at? resp t, (answer req).runFailing m at? s = (resp, t) → 400 ≤ resp.status →
        s.SameReactions t) ↔
      ¬ ∃ e n, (answer req).job = .deactivate (e, n) ∧ s.IsActive e n := by
  constructor
  · rintro hsame ⟨e, n, hjob, hactive⟩
    have hanswer := handled_of_deactivate (answer_cases req) hjob
    obtain ⟨hstatus, hchanged⟩ := changed_of_interrupted hs.store hactive m
    exact hchanged (hsame (some 0) _ _ (by rw [hanswer]) hstatus)
  · intro hnot at? resp t hrun hresp
    rcases answer_cases req with hq | ⟨r, -, ha⟩ | ⟨e, n, ha⟩
    · have hsame := hq.runFailing (m := m) at? s
      rwa [hrun] at hsame
    · exact create_unchanged hs at? (ha ▸ hrun) hresp
    · have hidle : ¬ s.IsActive e n := fun h => hnot ⟨e, n, by rw [ha]; rfl, h⟩
      have hsame := delete_unchanged (m := m) hs hidle at?
      rw [← ha, hrun] at hsame
      exact hsame

/-- What one request has left agrees. -/
theorem Service.agrees_after_one (actions : Registry ActionModule) (sources : Registry EventSource)
    (evaluate : Evaluator) (req : Request) :
    ((answer req).run (Service.new actions sources evaluate)).2.Agrees := by
  have hclock : ([Turn.request 0 req].filterMap Turn.reading?).Pairwise (· ≤ ·) := by
    cases h : (Turn.request 0 req).reading? <;> simp [h]
  obtain ⟨s, hs, hagrees⟩ := Service.agrees_after actions sources evaluate hclock
  cases hs
  exact hagrees

/-- An active bell, to be created again while the storage fails. -/
theorem unchanged_second_bell :
    let post : Request := ⟨"POST", "/v1/events/door/reactions", some "application/json",
      "\x7b\"name\":\"bell\"\x7d".toUTF8⟩
    let s := ((answer post).run (Service.new .actions .sources fun _ _ _ => .ok .stop)).2
    s.Agrees ∧ s.storage.count = 1 ∧
      ∀ at? resp t, (answer post).runFailing "disk I/O error" at? s = (resp, t) →
        400 ≤ resp.status → s.SameReactions t := by
  intro post s
  have hs : s.Agrees := Service.agrees_after_one _ _ _ post
  have hcount : s.storage.count = 1 := by decide +kernel
  have hjob : (answer post).job = .create (.bare "bell" "door" "") := by decide +kernel
  refine ⟨hs, hcount, (unchanged_iff_not_deactivated hs post _).2 ?_⟩
  rintro ⟨e, n, hdeactivate, -⟩
  rw [hjob] at hdeactivate
  cases hdeactivate

/-- An active bell that is deleted only halfway, since its row cannot be taken
    out. -/
theorem deactivated_by_failure :
    let post : Request := ⟨"POST", "/v1/events/door/reactions", some "application/json",
      "\x7b\"name\":\"bell\"\x7d".toUTF8⟩
    let delete : Request := ⟨"DELETE", "/v1/events/door/reactions/bell", none, .empty⟩
    let s := ((answer post).run (Service.new .actions .sources fun _ _ _ => .ok .stop)).2
    s.Agrees ∧
      ¬ ∀ at? resp t, (answer delete).runFailing "disk I/O error" at? s = (resp, t) →
        400 ≤ resp.status → s.SameReactions t := by
  intro post delete s
  have hs : s.Agrees := Service.agrees_after_one _ _ _ post
  have hjob : (answer delete).job = .deactivate ("door", "bell") := by decide +kernel
  have hactive : s.IsActive "door" "bell" := by
    rw [Service.isActive_iff]
    decide +kernel
  refine ⟨hs, fun hsame => ?_⟩
  obtain ⟨hstatus, hchanged⟩ := changed_of_interrupted hs.store hactive "disk I/O error"
  have hanswer : answer delete = Reactions.delete "door" "bell" :=
    handled_of_deactivate (answer_cases delete) hjob
  exact hchanged (hsame (some 0) _ _ (by rw [hanswer]) hstatus)

end Reactor.Http
