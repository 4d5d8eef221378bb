/-
  What survives a restart when requests are answered at the same time.

  * `Service.Agrees` says that the same reactions are active and persisted, as
    they are after requests that were answered one at a time (`agrees_after`);
  * `nothing_resurrected`: whenever no request is under way, every row is that of
    an active reaction, so that a restart brings nothing else back;
  * `Contended` says that a key is created and deleted so often that a deletion
    may come between the two calls of a creation; `durable_iff_not_contended`:
    this is what it takes for an active reaction to have no row;
  * `lost_between_calls`: one creation and one deletion are enough.
-/
import Mathlib.Logic.Relation
import Reactor.Proofs.Http.Crowd
import Reactor.Proofs.Http.Mirror

namespace Reactor.Http

open Relation (ReflTransGen)

namespace Service

/-- The same reactions are active and persisted. -/
structure Agrees (s : Service) : Prop where
  store : s.engine.store.Valid
  storage : s.storage.Valid
  agrees : ∀ e n, s.storage.get e n = .ok (s.engine.store.get e n).toOption

variable {s : Service}

theorem Agrees.new (actions : Registry ActionModule) (sources : Registry EventSource)
    (evaluate : Evaluator) : (Service.new actions sources evaluate).Agrees :=
  ⟨Store.valid_empty, Storage.valid_empty, fun _ _ => rfl⟩

/-- A storage that mirrors the active reactions agrees with them. -/
theorem Mirrored.agrees (hs : s.Mirrored) : s.Agrees := by
  have hvalid : s.storage.Valid := hs.ordered.valid hs.holds hs.store.named
  refine ⟨hs.store, hvalid, fun e n => ?_⟩
  cases hf : s.engine.store.get e n with
  | error f =>
    refine Storage.get_eq_ok.2 (hs.find?_eq_none.2 ?_)
    cases hr : s.engine.store.find? e n with
    | none => rfl
    | some r => rw [Store.get_eq_ok.2 hr] at hf; cases hf
  | ok r =>
    obtain ⟨hr, rfl⟩ := (Store.find?_eq_some hs.store).1 (Store.get_eq_ok.1 hf)
    obtain ⟨row, hrow, rfl, hread⟩ := (hs.holds e).exists_row hr
    have hk : row.key = (row.event, r.name) :=
      congrArg (row.event, ·) (congrArg Prod.snd (Row.reaction_ok hread).1).symm
    exact Storage.get_eq_ok.2 ⟨row, (Storage.find?_eq_some hvalid).2 ⟨hrow, hk⟩, hread⟩

/-- Requests that are answered one at a time leave what is active and what is
    persisted in agreement. -/
theorem agrees_after (actions : Registry ActionModule) (sources : Registry EventSource)
    (evaluate : Evaluator) {turns : List Turn}
    (hclock : (turns.filterMap Turn.reading?).Pairwise (· ≤ ·)) :
    ∃ s, (Service.new actions sources evaluate).after turns = .ok s ∧ s.Agrees := by
  obtain ⟨s, hs, hmirrored⟩ :=
    (Mirrored.new actions sources evaluate).after hclock fun _ _ _ h => nomatch h
  exact ⟨s, hs, hmirrored.agrees⟩

theorem Agrees.sound (hs : s.Agrees) : s.Sound := by
  refine ⟨hs.store, hs.storage, fun row hrow => ?_⟩
  have hget := hs.agrees row.event row.name
  have hf := (Storage.find?_eq_some hs.storage).2 ⟨hrow, rfl⟩
  rw [Storage.get, hf] at hget
  obtain ⟨r, hr, -⟩ := Except.map_eq_ok.1 hget
  exact ⟨r, hr⟩

theorem Agrees.board (hs : s.Agrees) (k : Key) : s.board.persisted k = s.board.active k := by
  have hget := hs.agrees k.1 k.2
  cases ha : s.board.active k with
  | some r =>
    rw [active_iff.1 ha] at hget
    exact persisted_iff.2 hget
  | none =>
    have hnone : (s.engine.store.get k.1 k.2).toOption = none := by
      cases hg : s.engine.store.get k.1 k.2 with
      | error f => rfl
      | ok r => rw [active_iff.2 hg] at ha; cases ha
    rw [hnone] at hget
    exact hs.sound.persisted_eq_none.2 (Storage.get_eq_ok.1 hget)

/-- **A restart brings back what is persisted.** -/
theorem Sound.restart (hs : s.Sound) :
    ∃ t, s.restart = .ok t ∧
      ∀ e n r, t.engine.store.get e n = .ok r ↔ s.storage.get e n = .ok (some r) := by
  obtain ⟨rs, hall, hkeys, hnormal, hmem⟩ := Storage.exists_all_eq_ok hs.storage hs.readable
  obtain ⟨-, hvalid, hmatches⟩ :=
    Store.seed_of_nodup Store.valid_empty hkeys fun _ _ => rfl
  let fresh := Engine.new s.engine.actions s.engine.sources s.engine.evaluate
  refine ⟨{ s with engine := (fresh.seed rs).2, running := [], uptime := 0 },
    by rw [Service.restart, hall]; rfl, fun e n r => ?_⟩
  show (Store.empty.seed (rs.map Reaction.normalize)).2.get e n = .ok r ↔ _
  rw [hnormal, Store.get_eq_ok, Store.find?_eq_some hvalid, hmatches]
  show r ∈ [] ++ rs.filter (·.event == e) ∧ r.name = n ↔ _
  rw [List.nil_append, List.mem_filter, hmem, beq_iff_eq]
  constructor
  · rintro ⟨⟨h, rfl⟩, rfl⟩
    exact h
  · intro h
    obtain ⟨rfl, rfl⟩ := Prod.mk.inj (persisted_key (persisted_iff.2 h))
    exact ⟨⟨h, rfl⟩, rfl⟩

end Service

variable {s : Service} {reqs : List Request}

/-! ## Handlers alone -/

/-- Moves lead from one state to another. -/
def Crowd.Leads : Crowd → Crowd → Prop := ReflTransGen fun c d => ∃ m, c.move? m = some d

theorem Crowd.Reachable.leads {c d : Crowd} (hc : Reachable s reqs c) (h : c.Leads d) :
    Reachable s reqs d := by
  induction h with
  | refl => exact hc
  | tail _ hm ih =>
    obtain ⟨m, hm⟩ := hm
    exact ih.move m hm

/-- The handler that was begun last may make all its calls. -/
theorem Crowd.leads_run (waiting : List Request) (front : List (Request × Handler))
    (req : Request) : ∀ (h : Handler) (s : Service) (answered : List (Request × Response)),
    Leads ⟨s, waiting, front ++ [(req, h)], answered⟩
      ⟨(h.run s).2, waiting, front, answered ++ [(req, (h.run s).1)]⟩
  | .reply r, s, answered => by
    refine .single ⟨.reply front.length, ?_⟩
    rw [@move?_reply ⟨s, waiting, front ++ [(req, Handler.reply r)], answered⟩ front.length
      req r (by simp), List.eraseIdx_append_of_length_le (Nat.le_refl _)]
    simp [Handler.run]
  | .call a next, s, answered => by
    refine .head ⟨.call front.length, ?_⟩
      (leads_run waiting front req (next (a.run s).1) (a.run s).2 answered)
    rw [@move?_call ⟨s, waiting, front ++ [(req, Handler.call a next)], answered⟩
      front.length req (.call a next) (by simp), List.set_append_right _ _ (Nat.le_refl _)]
    simp [step_call]

/-- A request that is not begun may be answered without a break. -/
theorem Crowd.leads_answer {waiting : List Request} {i : Nat} {req : Request}
    (hreq : waiting[i]? = some req) (front : List (Request × Handler)) (s : Service)
    (answered : List (Request × Response)) :
    Leads ⟨s, waiting, front, answered⟩
      ⟨((answer req).run s).2, waiting.eraseIdx i, front,
        answered ++ [(req, ((answer req).run s).1)]⟩ :=
  .head ⟨.begin i, move?_begin hreq⟩ (leads_run _ front req (answer req) s answered)

/-! ## Nothing comes back -/

theorem owned_start (hs : s.Agrees) : Owned (Crowd.start s reqs).jobs s.board := by
  intro k r hr
  exact ⟨Service.persisted_key hr, Or.inl (hs.board k ▸ hr)⟩

theorem Owned.active_of_idle {c : Crowd} (h : Owned c.jobs c.service.board) (hc : c.busy = [])
    {k : Key} {r : Reaction} (hr : c.service.board.persisted k = some r) :
    c.service.board.active k = some r := by
  rcases (h k r hr).2 with ha | hj | hj
  · exact ha
  · rcases Crowd.jobs_of_idle hc hj with h | ⟨_, h⟩ | ⟨_, h⟩ <;> cases h
  · rcases Crowd.jobs_of_idle hc hj with h | ⟨_, h⟩ | ⟨_, h⟩ <;> cases h

/-- **Nothing comes back.**  Whatever requests are answered at the same time, and
    in whatever order their calls are made: whenever none is under way, every row
    is that of an active reaction, and a restart brings back nothing else. -/
theorem nothing_resurrected (hs : s.Agrees) {c : Crowd} (hc : Crowd.Reachable s reqs c)
    (hidle : c.busy = []) :
    (∀ row ∈ c.service.storage.rows, ∃ r, row.reaction = .ok r ∧
        c.service.engine.store.get row.event row.name = .ok r) ∧
      ∃ t, c.service.restart = .ok t ∧
        ∀ e n r, t.engine.store.get e n = .ok r → c.service.engine.store.get e n = .ok r := by
  obtain ⟨horderly, howned⟩ := hc.induct hs.sound (owned_start hs) Owned.advance
  have hsound := horderly.sound
  have hactive {e n : String} {r : Reaction} (h : c.service.storage.get e n = .ok (some r)) :
      c.service.engine.store.get e n = .ok r :=
    Service.active_iff.1 (howned.active_of_idle hidle (Service.persisted_iff.2 h))
  refine ⟨fun row hrow => ?_, ?_⟩
  · obtain ⟨r, hr⟩ := hsound.readable row hrow
    have hf := (Storage.find?_eq_some hsound.storage).2 ⟨hrow, rfl⟩
    exact ⟨r, hr, hactive (Storage.get_eq_ok.2 ⟨row, hf, hr⟩)⟩
  · obtain ⟨t, ht, hget⟩ := hsound.restart
    exact ⟨t, ht, fun e n r hr => hactive ((hget e n r).1 hr)⟩

/-- A bell that was created, and may be deleted yet. -/
theorem nothing_resurrected_bell :
    let post : Request := ⟨"POST", "/v1/events/door/reactions", some "application/json",
      "\x7b\"name\":\"bell\"\x7d".toUTF8⟩
    let delete : Request := ⟨"DELETE", "/v1/events/door/reactions/bell", none, .empty⟩
    let s := Service.new .actions .sources fun _ _ _ => .ok .stop
    ∃ c, s.Agrees ∧ Crowd.Reachable s [post, delete] c ∧ c.busy = [] ∧
      c.service.storage.count = 1 ∧
      (∀ row ∈ c.service.storage.rows, ∃ r, row.reaction = .ok r ∧
        c.service.engine.store.get row.event row.name = .ok r) ∧
      ∃ t, c.service.restart = .ok t ∧
        ∀ e n r, t.engine.store.get e n = .ok r → c.service.engine.store.get e n = .ok r := by
  intro post delete s
  have hs : s.Agrees := .new ..
  have hleads := @Crowd.leads_answer [post, delete] 0 post rfl [] s []
  have hc := Crowd.Reachable.start.leads hleads
  have hcount : ((answer post).run s).2.storage.count = 1 := by decide +kernel
  exact ⟨_, hs, hc, rfl, hcount, nothing_resurrected hs hc rfl⟩

/-! ## What is active is persisted -/

/-- Every active reaction is persisted, and a restart brings it back. -/
structure Service.Durable (s : Service) : Prop where
  persisted : ∀ e n r, s.engine.store.get e n = .ok r → s.storage.get e n = .ok (some r)
  restored : ∃ t, s.restart = .ok t ∧
    ∀ e n r, s.engine.store.get e n = .ok r → t.engine.store.get e n = .ok r

/-- A reaction is to be created under a key for which there are more deletions
    than active reactions. -/
def Contended (s : Service) (reqs : List Request) (k : Key) : Prop :=
  (∃ req ∈ reqs, ∃ r, (answer req).job = .create r ∧ r.key = k) ∧
    (if (s.engine.store.get k.1 k.2).isOk then 1 else 0) <
      reqs.countP fun req => (answer req).job = .deactivate k

theorem pending_start_deactivate (s : Service) (reqs : List Request) (k : Key) :
    pending (Crowd.start s reqs).jobs .deactivate k =
      reqs.countP fun req => (answer req).job = .deactivate k := by
  rw [Crowd.pending_idle rfl]
  refine List.countP_congr fun req _ => ?_
  rw [beq_iff_eq, Job.target?_eq_deactivate, decide_eq_true_iff]

theorem exists_create_of_pending {k : Key} (h : 0 < pending (Crowd.start s reqs).jobs .create k) :
    ∃ req ∈ reqs, ∃ r, (answer req).job = .create r ∧ r.key = k := by
  rw [Crowd.pending_idle rfl] at h
  obtain ⟨req, hreq, hjob⟩ := List.countP_pos_iff.1 h
  exact ⟨req, hreq, Job.target?_eq_create.1 (beq_iff_eq.1 hjob)⟩

theorem calm_start (hs : s.Agrees) {k : Key} (hk : ¬ Contended s reqs k) :
    Calm (Crowd.start s reqs).jobs s.board k := by
  have hidle : (Crowd.start s reqs).busy = [] := rfl
  have hactivate := Crowd.pending_idle_eq_zero hidle (Or.inl rfl) k
  have hfetch := Crowd.pending_idle_eq_zero hidle (Or.inr (Or.inl rfl)) k
  have herase := Crowd.pending_idle_eq_zero hidle (Or.inr (Or.inr rfl)) k
  refine ⟨fun _ => ⟨hs.board k, hactivate, hfetch, herase⟩, fun h => ?_, fun r hr _ => ?_,
    fun hcreate => ?_⟩
  · omega
  · rcases Crowd.jobs_of_idle hidle hr with h | ⟨_, h⟩ | ⟨_, h⟩ <;> cases h
  · have hfew := Nat.le_of_not_lt fun hlt => hk ⟨exists_create_of_pending hcreate, hlt⟩
    rw [← pending_start_deactivate s, Store.get_isOk] at hfew
    refine ⟨hfetch, ?_, fun hpos hnone => ?_, fun h => by omega⟩
    · split at hfew <;> omega
    · rw [show s.engine.store.find? k.1 k.2 = none from hnone] at hfew
      exact absurd hfew (Nat.not_le_of_lt hpos)

/-- Without contention whatever is active is persisted. -/
theorem durable_of_not_contended (hs : s.Agrees) (hk : ∀ k, ¬ Contended s reqs k) {c : Crowd}
    (hc : Crowd.Reachable s reqs c) : c.service.Durable := by
  obtain ⟨horderly, hcalm⟩ := hc.induct (P := fun jobs b => ∀ k, Calm jobs b k) hs.sound
    (fun k => calm_start hs (hk k)) fun h ha k => (h k).advance ha
  have hpersisted {e n : String} {r : Reaction} (hr : c.service.engine.store.get e n = .ok r) :
      c.service.storage.get e n = .ok (some r) := by
    have hactive := Service.active_iff.2 hr
    have hsame := ((hcalm (e, n)).kept (by rw [hactive]; exact nofun)).1
    exact Service.persisted_iff.1 (hsame.trans hactive)
  obtain ⟨t, ht, hget⟩ := horderly.sound.restart
  exact ⟨fun e n r => hpersisted, t, ht, fun e n r hr => (hget e n r).2 (hpersisted hr)⟩

/-! ## A deletion between the calls of a creation -/

/-- A reaction is persisted, deleted again, and then made active. -/
theorem leads_lost (hs : s.Sound) {k : Key} (hactive : s.board.active k = none)
    (hpersisted : s.board.persisted k = none) {waiting : List Request} {i : Nat}
    {post del : Request} {r : Reaction} (hpost : waiting[i]? = some post)
    (hcreate : (answer post).job = .create r) (hk : r.key = k) (hdel : del ∈ waiting.eraseIdx i)
    (hdelete : (answer del).job = .deactivate k) (answered : List (Request × Response)) :
    ∃ c, Crowd.Leads ⟨s, waiting, [], answered⟩ c ∧ c.busy = [] ∧
      c.service.board.active k = some r ∧ c.service.board.persisted k = none := by
  subst hk
  obtain ⟨hr, hanswer⟩ := handled_of_create (answer_cases post) hcreate
  have hanswer' := handled_of_deactivate (answer_cases del) hdelete
  obtain ⟨j, hj⟩ := List.getElem?_of_mem hdel
  -- the reaction is persisted
  have hbegin : Crowd.Leads ⟨s, waiting, [], answered⟩
      ⟨s, waiting.eraseIdx i, [(post, answer post)], answered⟩ :=
    .single ⟨.begin i, Crowd.move?_begin hpost⟩
  obtain ⟨t, ht, hrun⟩ : ∃ t, s.storage.create s.now r = .ok t ∧
      (Access.create r).run s = (.ok (), { s with storage := t }) := by
    rcases Access.run_create r s with h | ⟨row, hf, -⟩
    · exact h
    · rw [hs.persisted_eq_none.1 hpersisted] at hf
      cases hf
  obtain ⟨hs₁, hboard₁⟩ := hs.created hr ht
  have hcall : Crowd.Leads ⟨s, waiting.eraseIdx i, [(post, answer post)], answered⟩
      ⟨{ s with storage := t }, waiting.eraseIdx i,
        [(post, .call (.activate r) (Reactions.afterActivate r))], answered⟩ := by
    refine .single ⟨.call 0, ?_⟩
    rw [Crowd.move?_call (h := answer post) rfl, hanswer, step_call, hrun]
    rfl
  -- it is not active yet, but found in the storage, and deleted there
  have hdelLeads := Crowd.leads_answer hj
    [(post, .call (.activate r) (Reactions.afterActivate r))] { s with storage := t } answered
  rw [hanswer'] at hdelLeads
  have hlingers : (Service.board { s with storage := t }).persisted r.key = some r := by
    rw [hboard₁]; simp
  obtain ⟨hs₂, hboard₂⟩ :=
    run_delete_lingering hs₁ (by rw [hboard₁]; exact hactive) hlingers rfl
  -- now it is made active
  have hpostLeads := Crowd.leads_run ((waiting.eraseIdx i).eraseIdx j) [] post
    (.call (.activate r) (Reactions.afterActivate r))
    ((Reactions.delete r.event r.name).run { s with storage := t }).2
    (answered ++ [(del, ((Reactions.delete r.event r.name).run { s with storage := t }).1)])
  obtain ⟨hs₃, hboard₃⟩ := run_activate hs₂ hr (by rw [hboard₂, hboard₁]; exact hactive) rfl
  refine ⟨_, ((hbegin.trans hcall).trans hdelLeads).trans hpostLeads, rfl, ?_, ?_⟩
  · rw [hboard₃]; simp
  · rw [hboard₃, hboard₂]; simp [Reaction.key]

/-- Where a key is contended an active reaction may have no row. -/
theorem lost_of_contended (hs : s.Agrees) {k : Key} (hk : Contended s reqs k) :
    ∃ c, Crowd.Reachable s reqs c ∧ c.busy = [] ∧ ¬ c.service.Durable := by
  obtain ⟨⟨post, hpost, r, hcreate, hr⟩, hmany⟩ := hk
  -- it is enough to come to a state where nothing is under the key
  suffices h : ∃ (t : Service) (waiting : List Request) (answered : List (Request × Response))
      (i : Nat) (del : Request),
      Crowd.Leads (.start s reqs) ⟨t, waiting, [], answered⟩ ∧ t.Sound ∧
        t.board.active k = none ∧ t.board.persisted k = none ∧ waiting[i]? = some post ∧
        del ∈ waiting.eraseIdx i ∧ (answer del).job = .deactivate k by
    obtain ⟨t, waiting, answered, i, del, hleads, ht, hactive, hpersisted, hi, hdel, hdelete⟩ := h
    obtain ⟨c, hc, hidle, hactive, hpersisted⟩ :=
      leads_lost ht hactive hpersisted hi hcreate hr hdel hdelete answered
    refine ⟨c, Crowd.Reachable.start.leads (hleads.trans hc), hidle, fun hdurable => ?_⟩
    have hget := hdurable.persisted k.1 k.2 r (Service.active_iff.1 hactive)
    rw [show c.service.board.persisted k = some r from Service.persisted_iff.2 hget] at hpersisted
    cases hpersisted
  have hne {del : Request} (hdelete : (answer del).job = .deactivate k) : del ≠ post := by
    rintro rfl
    rw [hcreate] at hdelete
    cases hdelete
  have hother {waiting : List Request} {i : Nat} {del req : Request} (hi : waiting[i]? = some req)
      (hdel : del ∈ waiting) (hne : del ≠ req) : del ∈ waiting.eraseIdx i := by
    obtain ⟨j, hj⟩ := List.getElem?_of_mem hdel
    refine List.mem_eraseIdx_iff_getElem?.2 ⟨j, ?_, hj⟩
    rintro rfl
    rw [hi] at hj
    cases hj
    exact hne rfl
  obtain ⟨del, hdel, hdelete⟩ := List.countP_pos_iff.1 (Nat.lt_of_le_of_lt (Nat.zero_le _) hmany)
  have hdelete := of_decide_eq_true hdelete
  cases hactive : s.board.active k with
  | none =>
    obtain ⟨i, hi⟩ := List.getElem?_of_mem hpost
    exact ⟨s, reqs, [], i, del, .refl, hs.sound, hactive, (hs.board k).trans hactive, hi,
      hother hi hdel (hne hdelete), hdelete⟩
  | some r' =>
    -- the first deletion removes what is there, a second one is left
    obtain ⟨i, hi⟩ := List.getElem?_of_mem hdel
    have hanswer := handled_of_deactivate (answer_cases del) hdelete
    have hleads := Crowd.leads_answer hi [] s []
    obtain ⟨ht, hboard⟩ := run_delete_active (e := k.1) (n := k.2) hs.sound
      (by rw [show s.board.active (k.1, k.2) = some r' from hactive]; exact nofun) rfl
    rw [hanswer] at hleads
    have hpost' := hother hi hpost (hne hdelete).symm
    obtain ⟨j, hj⟩ := List.getElem?_of_mem hpost'
    obtain ⟨del', hdel', hdelete'⟩ : ∃ del' ∈ reqs.eraseIdx i, (answer del').job = .deactivate k := by
      obtain ⟨hlt, rfl⟩ := List.getElem?_eq_some_iff.1 hi
      have hcount := (List.getElem_cons_eraseIdx_perm hlt).countP_eq fun req =>
        decide ((answer req).job = .deactivate k)
      rw [Service.active_iff.1 hactive, ← hcount, List.countP_cons_of_pos (by simpa using hdelete)]
        at hmany
      obtain ⟨del', hdel', h⟩ := List.countP_pos_iff.1 (Nat.lt_of_succ_lt_succ hmany)
      exact ⟨del', hdel', of_decide_eq_true h⟩
    exact ⟨_, _, _, j, del', hleads, ht, by rw [hboard]; simp, by rw [hboard]; simp, hj,
      hother hj hdel' (hne hdelete'), hdelete'⟩

/-- **What it takes to lose an active reaction.**  Requests that are answered at
    the same time, from a state where the same reactions are active and
    persisted, leave every active reaction persisted whenever none is under way,
    if and only if no key is contended. -/
theorem durable_iff_not_contended (hs : s.Agrees) (reqs : List Request) :
    (∀ c, Crowd.Reachable s reqs c → c.busy = [] → c.service.Durable) ↔
      ∀ k, ¬ Contended s reqs k := by
  constructor
  · intro hdurable k hk
    obtain ⟨c, hc, hidle, hlost⟩ := lost_of_contended hs hk
    exact hlost (hdurable c hc hidle)
  · exact fun hk c hc _ => durable_of_not_contended hs hk hc

/-- With an empty storage, one creation and one deletion of a bell are enough. -/
theorem lost_between_calls :
    let post : Request := ⟨"POST", "/v1/events/door/reactions", some "application/json",
      "\x7b\"name\":\"bell\"\x7d".toUTF8⟩
    let delete : Request := ⟨"DELETE", "/v1/events/door/reactions/bell", none, .empty⟩
    let s := Service.new .actions .sources fun _ _ _ => .ok .stop
    s.Agrees ∧ ¬ ∀ c, Crowd.Reachable s [post, delete] c → c.busy = [] → c.service.Durable := by
  intro post delete s
  have hs : s.Agrees := .new ..
  have hcontended : Contended s [post, delete] ("door", "bell") := by
    refine ⟨⟨post, List.mem_cons_self, .bare "bell" "door" "", ?_, rfl⟩, ?_⟩
    · decide +kernel
    · decide +kernel
  refine ⟨hs, fun hdurable => ?_⟩
  obtain ⟨c, hc, hidle, hlost⟩ := lost_of_contended hs hcontended
  exact hlost (hdurable c hc hidle)

/-- Two creations of a bell and no deletion lose nothing. -/
theorem durable_two_bells :
    let post (body : String) : Request :=
      ⟨"POST", "/v1/events/door/reactions", some "application/json", body.toUTF8⟩
    let reqs := [post "\x7b\"name\":\"bell\"\x7d",
      post "\x7b\"name\":\"bell\",\"script\":\"x\"\x7d"]
    let s := Service.new .actions .sources fun _ _ _ => .ok .stop
    s.Agrees ∧ ∀ c, Crowd.Reachable s reqs c → c.busy = [] → c.service.Durable := by
  intro post reqs s
  have hs : s.Agrees := .new ..
  have hjobs : reqs.map (fun req => (answer req).job) =
      [.create (.bare "bell" "door" ""), .create (.bare "bell" "door" "x")] := by decide +kernel
  refine ⟨hs, (durable_iff_not_contended hs reqs).2 fun k hk => ?_⟩
  obtain ⟨req, hreq, hdelete⟩ := List.countP_pos_iff.1 (Nat.lt_of_le_of_lt (Nat.zero_le _) hk.2)
  have hjob : (answer req).job ∈ reqs.map fun req => (answer req).job := List.mem_map_of_mem hreq
  rw [hjobs, of_decide_eq_true hdelete] at hjob
  simp at hjob

end Reactor.Http
