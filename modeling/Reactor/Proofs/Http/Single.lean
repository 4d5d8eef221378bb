/-
  A request that is answered alone, whatever is active and persisted.

  The active reactions and the rows need not agree, and there may be rows that
  cannot be read.

  * `Service.Gains` and `Service.Loses` say that a service has one reaction more,
    or less, on both sides, and is otherwise as it was;
  * `CreateAnswered` and `DeleteAnswered` say what is answered in which state,
    and what becomes of the service; `run_create` and `run_delete`: so it is;
  * `answered_alone`: the same of requests.
-/
import Reactor.Proofs.Http.Access
import Reactor.Proofs.Http.Answer
import Reactor.Proofs.Http.History

namespace Reactor.Http

/-! ## Requests for one reaction -/

variable {req : Request} {event name : String} {r : Reaction}

theorem Posts.answer_eq (h : Posts req event r) : answer req = Reactions.create event r := by
  obtain ⟨raw, hroute, hevent⟩ := h.route
  obtain ⟨j, hj, rfl⟩ := h.body
  have hbody (next : Json → Handler) : Handler.withBody req Reaction.form next = next j := by
    simp [Handler.withBody, hj.isJson, Nat.not_lt.2 hj.short, hj.decodes]
  simp [answer, hroute, h.method, Route.handler?, Handler.withSegment, hevent, hbody]

theorem Deletes.answer_eq (h : Deletes req event name) :
    answer req = Reactions.delete event name := by
  obtain ⟨rawEvent, rawName, hroute, hevent, hname⟩ := h.route
  simp [answer, hroute, h.method, Route.handler?, Handler.withSegment, hevent, hname]

/-- A reaction that is refused whatever there is: its name is blank, or a step
    names no module or no action. -/
def Refused (r : Reaction) : Prop :=
  Text.isBlank r.name ∨ ∃ f ∈ r.steps, f.2.module = "" ∨ f.2.action = ""

theorem objection?_eq_none : Reactions.objection? r = none ↔ ¬ Refused r := by
  unfold Reactions.objection? Reactions.incomplete? Refused
  by_cases hblank : Text.isBlank r.name
  · simp [hblank]
  · simp [hblank, List.find?_eq_none]

theorem status_of_objection? {e : ApiError} (h : Reactions.objection? r = some e) :
    e.status = 400 := by
  unfold Reactions.objection? at h
  split at h
  · cases h; rfl
  · obtain ⟨f, -, rfl⟩ := Option.map_eq_some_iff.1 h
    rfl

/-! ## Both sides -/

namespace Service

/-- A reaction is active under a key. -/
def IsActive (s : Service) (e n : String) : Prop := ∃ r ∈ s.engine.store.matchesFor e, r.name = n

/-- There is a row with a key. -/
def IsPersisted (s : Service) (e n : String) : Prop :=
  ∃ row ∈ s.storage.rows, row.event = e ∧ row.name = n

/-- There is a row with a key, and it cannot be read. -/
def IsUnreadable (s : Service) (e n : String) : Prop :=
  ∃ row ∈ s.storage.rows, (row.event = e ∧ row.name = n) ∧ ∃ f, row.reaction = .error f

/-- A reaction more, after those of its event and in a new row, and nothing
    else. -/
structure Gains (s t : Service) (r : Reaction) : Prop where
  active : ∀ e, t.engine.store.matchesFor e =
    if e = r.event then s.engine.store.matchesFor e ++ [r] else s.engine.store.matchesFor e
  persisted : ∃ row, row.reaction = .ok r ∧ t.storage.rows = s.storage.rows ++ [row]
  rest : t = { s with engine := { s.engine with store := t.engine.store }, storage := t.storage }

/-- Whatever is under a key less, and nothing else. -/
structure Loses (s t : Service) (e n : String) : Prop where
  active : ∀ e', t.engine.store.matchesFor e' =
    if e' = e then (s.engine.store.matchesFor e).filter (·.name != n)
    else s.engine.store.matchesFor e'
  persisted : t.storage.rows = s.storage.rows.filter fun row => !row.isFor e n
  rest : t = { s with engine := { s.engine with store := t.engine.store }, storage := t.storage }

variable {s t : Service} {e n : String}

theorem isActive_iff : s.IsActive e n ↔ (s.engine.store.find? e n).isSome := by
  simp [IsActive, Store.find?]

theorem isPersisted_iff : s.IsPersisted e n ↔ (s.storage.find? e n).isSome := by
  simp [IsPersisted, Storage.find?, Row.isFor]

theorem isUnreadable_iff (hs : s.storage.Valid) {row : Row} (h : s.storage.find? e n = some row) :
    s.IsUnreadable e n ↔ ∃ f, row.reaction = .error f := by
  constructor
  · rintro ⟨row', hrow', ⟨rfl, rfl⟩, hf⟩
    rw [(Storage.find?_eq_some hs).2 ⟨hrow', rfl⟩] at h
    cases h
    exact hf
  · intro hf
    obtain ⟨hrow, hk⟩ := (Storage.find?_eq_some hs).1 h
    exact ⟨row, hrow, Prod.mk.inj hk, hf⟩

theorem IsUnreadable.isPersisted (h : s.IsUnreadable e n) : s.IsPersisted e n := by
  obtain ⟨row, hrow, hk, -⟩ := h
  exact ⟨row, hrow, hk⟩

theorem Loses.not_isActive (h : s.Loses t e n) : ¬ t.IsActive e n := by
  rintro ⟨r, hr, hn⟩
  rw [h.active, if_pos rfl] at hr
  simp [hn] at hr

theorem Loses.not_isPersisted (h : s.Loses t e n) : ¬ t.IsPersisted e n := by
  rintro ⟨row, hrow, hk⟩
  rw [h.persisted] at hrow
  simp [Row.isFor, hk] at hrow

end Service

/-! ## Creating -/

/-- What is answered to a request for a reaction, and what becomes of the
    service. -/
structure CreateAnswered (s : Service) (event : String) (r : Reaction) (resp : Response)
    (t : Service) : Prop where
  refused : resp.status = 400 ↔ Refused r
  taken : resp.status = 409 ↔ ¬ Refused r ∧ (s.IsPersisted event r.name ∨ s.IsActive event r.name)
  created : resp.status = 201 ↔
    ¬ Refused r ∧ ¬ (s.IsPersisted event r.name ∨ s.IsActive event r.name)
  unchanged : resp.status ≠ 201 → t = s
  changed : resp.status = 201 →
    s.Gains t (Reactions.boundTo event r) ∧ resp.body = .json (Reactions.boundTo event r).toJson

namespace CreateAnswered

variable {s t : Service} {resp : Response}

theorem of_refused (hr : Refused r) (h : resp.status = 400) : CreateAnswered s event r resp s := by
  constructor <;> simp [h, hr]

theorem of_taken (hr : ¬ Refused r) (ht : s.IsPersisted event r.name ∨ s.IsActive event r.name)
    (h : resp.status = 409) : CreateAnswered s event r resp s := by
  constructor <;> simp [h, hr, ht]

theorem of_gains (hr : ¬ Refused r) (hp : ¬ s.IsPersisted event r.name)
    (ha : ¬ s.IsActive event r.name) (ht : s.Gains t (Reactions.boundTo event r)) :
    CreateAnswered s event r (.json 201 (Reactions.boundTo event r).toJson) t := by
  constructor <;> simp [Response.json, hr, hp, ha, ht]

end CreateAnswered

variable {s : Service}

theorem gains_of_ok (hs : s.engine.store.Valid) (hr : Proper r) {t : Storage} {u : Store}
    (hc : s.storage.create s.now r = .ok t) (ha : s.engine.store.add r = .ok u) :
    s.Gains ({ s with storage := t }.withStore u) r := by
  refine ⟨Store.matchesFor_add hs ha, ⟨s.storage.rowOf s.now r, ?_, ?_⟩, rfl⟩
  · rw [Storage.reaction_rowOf hr.sorted, hr.named]
  · exact congrArg Storage.rows (Storage.create_eq_ok.1 hc).2

/-- How a creation ends that is not refused. -/
theorem run_persist (hs : s.engine.store.Valid) (hr : r.steps.Sorted) (hok : ¬ Refused r) :
    ∃ resp t, (Handler.call (.create (Reactions.boundTo event r))
        (Reactions.afterCreate (Reactions.boundTo event r))).run s = (resp, t) ∧
      CreateAnswered s event r resp t := by
  have hproper := Proper.boundTo hr event
  rw [Handler.run_call]
  rcases Access.run_create (Reactions.boundTo event r) s with ⟨t, hc, hrun⟩ | ⟨row, hf, hrun⟩
  · have hnew : ¬ s.IsPersisted event r.name := by
      rw [Service.isPersisted_iff, show s.storage.find? event r.name = none from
        (Storage.create_eq_ok.1 hc).1]
      exact nofun
    rw [hrun, Reactions.afterCreate, Handler.run_call]
    rcases Access.run_activate (Reactions.boundTo event r) { s with storage := t } with
      ⟨u, ha, hrun⟩ | ⟨r', hf, hrun⟩
    · rw [hproper.named] at ha
      have hidle : ¬ s.IsActive event r.name := by
        rw [Service.isActive_iff, show s.engine.store.find? event r.name = none from
          (Store.add_eq_ok.1 ha).1]
        exact nofun
      rw [hrun]
      exact ⟨_, _, rfl, .of_gains hok hnew hidle (gains_of_ok hs hproper hc ha)⟩
    · -- it is active already, so the new row is taken out again
      have hactive : s.IsActive event r.name := by
        rw [Service.isActive_iff, show s.engine.store.find? event r.name = some r' from hf]
        rfl
      rw [hrun, Reactions.afterActivate, Handler.run_call, Access.run, Storage.delete_create hc]
      exact ⟨_, _, rfl, .of_taken hok (Or.inr hactive) rfl⟩
  · have hthere : s.IsPersisted event r.name := by
      rw [Service.isPersisted_iff, show s.storage.find? event r.name = some row from hf]
      rfl
    rw [hrun]
    exact ⟨_, _, rfl, .of_taken hok (Or.inl hthere) rfl⟩

/-- **How a creation ends.** -/
theorem run_create (hs : s.engine.store.Valid) (hr : r.steps.Sorted) (event : String) :
    ∃ resp t, (Reactions.create event r).run s = (resp, t) ∧ CreateAnswered s event r resp t := by
  unfold Reactions.create
  cases ho : Reactions.objection? r with
  | none => exact run_persist hs hr (objection?_eq_none.1 ho)
  | some e =>
    have hrefused : Refused r := by
      by_contra h
      rw [objection?_eq_none.2 h] at ho
      cases ho
    exact ⟨e.response, s, rfl, .of_refused hrefused (status_of_objection? ho)⟩

/-! ## Deleting -/

/-- What is answered to a request to delete what is under a key, and what
    becomes of the service. -/
structure DeleteAnswered (s : Service) (e n : String) (resp : Response) (t : Service) : Prop where
  missing : resp.status = 404 ↔ ¬ s.IsActive e n ∧ ¬ s.IsPersisted e n
  unreadable : resp.status = 500 ↔ ¬ s.IsActive e n ∧ s.IsUnreadable e n
  deleted : resp.status = 204 ↔ s.IsActive e n ∨ s.IsPersisted e n ∧ ¬ s.IsUnreadable e n
  unchanged : resp.status ≠ 204 → t = s
  changed : resp.status = 204 → s.Loses t e n ∧ ¬ t.IsActive e n ∧ ¬ t.IsPersisted e n

variable {t : Service} {e n : String}

/-- Nothing is found where nothing is. -/
theorem run_delete_missing (ha : ¬ s.IsActive e n) (hp : ¬ s.IsPersisted e n) :
    ∃ resp, resp.status = 404 ∧ (Reactions.delete e n).run s = (resp, s) := by
  rw [Service.isActive_iff, Option.not_isSome_iff_eq_none] at ha
  rw [Service.isPersisted_iff, Option.not_isSome_iff_eq_none] at hp
  rw [Reactions.delete, Handler.run_call]
  rcases Access.run_deactivate e n s with ⟨r, u, hr, -⟩ | ⟨-, f, hf, hrun⟩
  · rw [(Store.remove_eq_ok.1 hr).1] at ha
    cases ha
  · have hget : s.storage.get e n = .ok none := Storage.get_eq_ok.2 hp
    rw [hrun, afterDeactivate_error hf, Handler.run_call, Access.run, hget]
    refine ⟨(ApiError.ofStore f).response, ?_, rfl⟩
    rcases hf with rfl | rfl <;> rfl

namespace DeleteAnswered

variable {resp : Response}

theorem of_missing (ha : ¬ s.IsActive e n) (hp : ¬ s.IsPersisted e n) (h : resp.status = 404) :
    DeleteAnswered s e n resp s := by
  have hu : ¬ s.IsUnreadable e n := fun hu => hp hu.isPersisted
  constructor <;> simp [h, ha, hp, hu]

theorem of_unreadable (ha : ¬ s.IsActive e n) (hu : s.IsUnreadable e n) (h : resp.status = 500) :
    DeleteAnswered s e n resp s := by
  have hp := hu.isPersisted
  constructor <;> simp [h, ha, hp, hu]

theorem of_loses (h : s.IsActive e n ∨ s.IsPersisted e n ∧ ¬ s.IsUnreadable e n)
    (ht : s.Loses t e n) : DeleteAnswered s e n (.bare 204) t := by
  have hthere : ¬ (¬ s.IsActive e n ∧ ¬ s.IsPersisted e n) := by tauto
  have hread : ¬ (¬ s.IsActive e n ∧ s.IsUnreadable e n) := by tauto
  exact ⟨iff_of_false (by decide) hthere, iff_of_false (by decide) hread, iff_of_true rfl h,
    fun hne => absurd rfl hne, fun _ => ⟨ht, ht.not_isActive, ht.not_isPersisted⟩⟩

end DeleteAnswered

/-- A row that cannot be read is a fault of the service. -/
theorem status_of_unreadable {row : Row} {f : ServiceError} (h : row.reaction = .error f) :
    (ApiError.ofService f).response.status = 500 := by
  have hread (place : Nat) (column : String) (c : Cell) {g : ServiceError}
      (hg : c.read place column = .error g) : ∃ m, g = .storage m := by
    cases c <;> cases hg
    exact ⟨_, rfl⟩
  unfold Row.reaction at h
  cases hscript : row.script.read 2 "script" with
  | error g =>
    obtain ⟨m, rfl⟩ := hread _ _ _ hscript
    rw [hscript] at h
    cases h
    rfl
  | ok script =>
    cases hsteps : row.steps.read 3 "steps" with
    | error g =>
      obtain ⟨m, rfl⟩ := hread _ _ _ hsteps
      rw [hscript, hsteps] at h
      cases h
      rfl
    | ok text =>
      rw [hscript, hsteps] at h
      cases hdecode : Reaction.decodeSteps text with
      | error g =>
        rw [Except.ok_bind, Except.ok_bind, hdecode] at h
        cases h
        cases g <;> rfl
      | ok steps =>
        rw [Except.ok_bind, Except.ok_bind, hdecode] at h
        cases h

/-- How a deletion ends that has taken out what was active. -/
theorem run_erase_loses {u : Store}
    (hu : ∀ e', u.matchesFor e' = if e' = e then (s.engine.store.matchesFor e).filter (·.name != n)
      else s.engine.store.matchesFor e') :
    ∃ t, (Reactions.erase e n).run (s.withStore u) = (.bare 204, t) ∧ s.Loses t e n := by
  rw [Reactions.erase, Handler.run_call]
  rcases Access.run_delete e n (s.withStore u) with ⟨v, hd, hrun⟩ | ⟨hnone, hrun⟩
  · rw [hrun]
    exact ⟨_, rfl, hu, congrArg Storage.rows (Storage.delete_eq_ok.1 hd).2, rfl⟩
  · rw [hrun]
    refine ⟨_, rfl, hu, (List.filter_eq_self.2 fun row hrow => ?_).symm, rfl⟩
    have hk := Storage.find?_eq_none.1 hnone row hrow
    rw [ne_eq, ← Row.isFor_iff] at hk
    simp [hk]

/-- Where nothing is active nothing active is lost. -/
theorem filter_of_idle (h : ¬ s.IsActive e n) (e' : String) :
    s.engine.store.matchesFor e' =
      if e' = e then (s.engine.store.matchesFor e).filter (·.name != n)
      else s.engine.store.matchesFor e' := by
  split
  · rename_i he
    rw [he, eq_comm, List.filter_eq_self]
    intro r hr
    have hn : r.name ≠ n := fun hn => h ⟨r, hr, hn⟩
    simpa using hn
  · rfl

/-- **How a deletion ends.** -/
theorem run_delete (hs : s.engine.store.Valid) (hrows : s.storage.Valid) (e n : String) :
    ∃ resp t, (Reactions.delete e n).run s = (resp, t) ∧ DeleteAnswered s e n resp t := by
  rw [Reactions.delete, Handler.run_call]
  rcases Access.run_deactivate e n s with ⟨r, u, hr, hrun⟩ | ⟨hnone, f, hf, hrun⟩
  · have hactive : s.IsActive e n := by
      rw [Service.isActive_iff, (Store.remove_eq_ok.1 hr).1]
      rfl
    obtain ⟨t, ht, hloses⟩ := run_erase_loses (Store.matchesFor_remove hs hr)
    rw [hrun]
    exact ⟨_, t, ht, .of_loses (Or.inl hactive) hloses⟩
  · have hidle : ¬ s.IsActive e n := by
      rw [Service.isActive_iff, hnone]
      exact Bool.false_ne_true
    rw [hrun, afterDeactivate_error hf, Handler.run_call, Access.run]
    cases hfind : s.storage.find? e n with
    | none =>
      have hgone : ¬ s.IsPersisted e n := by
        rw [Service.isPersisted_iff, hfind]
        exact Bool.false_ne_true
      have hget : s.storage.get e n = .ok none := Storage.get_eq_ok.2 hfind
      rw [hget]
      refine ⟨(ApiError.ofStore f).response, s, rfl, .of_missing hidle hgone ?_⟩
      rcases hf with rfl | rfl <;> rfl
    | some row =>
      have hthere : s.IsPersisted e n := by
        rw [Service.isPersisted_iff, hfind]
        rfl
      cases hread : row.reaction with
      | error g =>
        have hget : s.storage.get e n = .error g := by simp [Storage.get, hfind, hread, Except.map]
        rw [hget]
        have hunreadable := (Service.isUnreadable_iff hrows hfind).2 ⟨g, hread⟩
        exact ⟨_, s, rfl, .of_unreadable hidle hunreadable (status_of_unreadable hread)⟩
      | ok r =>
        -- the row lingers, and is taken out
        have hget : s.storage.get e n = .ok (some r) := Storage.get_eq_ok.2 ⟨row, hfind, hread⟩
        have hreadable : ¬ s.IsUnreadable e n := by
          rw [Service.isUnreadable_iff hrows hfind, hread]
          rintro ⟨g, h⟩
          cases h
        obtain ⟨t, ht, hloses⟩ := run_erase_loses (filter_of_idle hidle)
        rw [hget]
        exact ⟨_, t, ht, .of_loses (Or.inr ⟨hthere, hreadable⟩) hloses⟩

/-! ## Requests -/

/-- **A request that is answered alone.**  Whatever is active and persisted, a
    creation and a deletion are answered by what is under the key on either side;
    a refusal leaves both sides as they were, and what has been deleted cannot be
    deleted again. -/
theorem answered_alone {s : Service} (hs : s.engine.store.Valid) (hrows : s.storage.Valid) :
    (∀ {req : Request} {event : String} {r : Reaction}, Posts req event r →
      ∃ resp t, (answer req).run s = (resp, t) ∧ CreateAnswered s event r resp t) ∧
    ∀ {req : Request} {event name : String}, Deletes req event name →
      ∃ resp t, (answer req).run s = (resp, t) ∧ DeleteAnswered s event name resp t ∧
        (resp.status = 204 → ((answer req).run t).1.status = 404) := by
  refine ⟨fun {req event r} h => ?_, fun {req event name} h => ?_⟩
  · rw [h.answer_eq]
    exact run_create hs h.sorted event
  · rw [h.answer_eq]
    obtain ⟨resp, t, hrun, ht⟩ := run_delete hs hrows event name
    refine ⟨resp, t, hrun, ht, fun hstatus => ?_⟩
    obtain ⟨-, hactive, hpersisted⟩ := ht.changed hstatus
    obtain ⟨resp', hstatus', hrun'⟩ := run_delete_missing hactive hpersisted
    rw [hrun']
    exact hstatus'

/-- A bell that is active and not persisted, and a lamp whose row cannot be
    read. -/
theorem answered_alone_bell :
    let post : Request := ⟨"POST", "/v1/events/door/reactions", some "application/json",
      "\x7b\"name\":\"bell\"\x7d".toUTF8⟩
    let delete : Request := ⟨"DELETE", "/v1/events/door/reactions/lamp", none, .empty⟩
    let bell : Reaction := .bare "bell" "door" ""
    let lamp : Row := ⟨1, "door", "lamp", .blob .empty, .text "", 0⟩
    let new := Service.new .actions .sources fun _ _ _ => .ok .stop
    let s := { new.withStore ⟨[("door", [bell])]⟩ with storage := ⟨[lamp]⟩ }
    s.engine.store.Valid ∧ s.storage.Valid ∧
      Posts post "door" (.bare "bell" "" "") ∧ Deletes delete "door" "lamp" ∧
      (∃ resp, (answer post).run s = (resp, s) ∧ resp.status = 409) ∧
      ∃ resp, (answer delete).run s = (resp, s) ∧ resp.status = 500 := by
  intro post delete bell lamp new s
  have hs : s.engine.store.Valid := Store.valid_empty.add (r := bell) rfl
  have hrows : s.storage.Valid := List.nodup_singleton _
  have hpost : Posts post "door" (.bare "bell" "" "") := by
    refine ⟨rfl, ⟨"door", by decide +kernel, by decide +kernel⟩, ?_⟩
    have hbody : (Json.decodeBytes Reaction.form post.body).toOption.map Reaction.ofJson =
        some (.bare "bell" "" "") := by decide +kernel
    obtain ⟨j, hj, hr⟩ := Option.map_eq_some_iff.1 hbody
    refine ⟨j, ⟨by decide +kernel, by decide +kernel, ?_⟩, hr⟩
    cases h : Json.decodeBytes Reaction.form post.body with
    | error e => rw [h] at hj; cases hj
    | ok j' => rw [h] at hj; cases hj; rfl
  have hdelete : Deletes delete "door" "lamp" :=
    ⟨rfl, "door", "lamp", by decide +kernel, by decide +kernel, by decide +kernel⟩
  obtain ⟨hcreates, hdeletes⟩ := answered_alone hs hrows
  refine ⟨hs, hrows, hpost, hdelete, ?_, ?_⟩
  · obtain ⟨resp, t, hrun, ht⟩ := hcreates hpost
    have hstatus : resp.status = 409 := ht.taken.2 ⟨objection?_eq_none.1 rfl, Or.inr
      ⟨bell, List.mem_singleton_self _, rfl⟩⟩
    rw [ht.unchanged (by rw [hstatus]; decide)] at hrun
    exact ⟨resp, hrun, hstatus⟩
  · obtain ⟨resp, t, hrun, ht, -⟩ := hdeletes hdelete
    have hstatus : resp.status = 500 := by
      refine ht.unreadable.2 ⟨?_, lamp, List.mem_singleton_self _, ⟨rfl, rfl⟩, _, rfl⟩
      rintro ⟨r, hr, hn⟩
      rw [List.mem_singleton.1 hr] at hn
      exact absurd hn (by decide)
    rw [ht.unchanged (by rw [hstatus]; decide)] at hrun
    exact ⟨resp, hrun, hstatus⟩

end Reactor.Http
