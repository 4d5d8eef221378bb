/-
  Requests that create a reaction under the same key.

  They are answered at the same time, in any order of their calls, and nothing
  is deleted meanwhile.

  * `Enters` says that a request creates a reaction, `Stands` how far it is: to
    be persisted, to be made active, answered with it, or refused;
  * `Stands.step`: a call takes it further, and who is answered with a reaction
    has made it active;
  * `Race` is the invariant: each active reaction was there at the start, or one
    request has been answered with it; `Crowd.Reachable.race`: so it is in every
    state;
  * `one_winner`: of the requests for a key that nothing is under at the start,
    one is answered with its reaction, and all others are refused.
-/
import Reactor.Proofs.Http.Durability
import Reactor.Proofs.Http.Single

namespace Reactor.Http

/-! ## Requests that create -/

/-- A request creates a reaction, to the event of its path and with its steps
    named, that nothing speaks against. -/
def Enters (req : Request) (r : Reaction) : Prop :=
  ∃ event r', Posts req event r' ∧ ¬ Refused r' ∧ Reactions.boundTo event r' = r

/-- A request creates a reaction under a key. -/
def Wants (req : Request) (e n : String) : Prop := ∃ r, Enters req r ∧ r.event = e ∧ r.name = n

variable {req : Request} {r : Reaction} {k : Key} {s : Service} {reqs : List Request}

theorem enters_iff : Enters req r ↔ (answer req).job = .create r := by
  constructor
  · rintro ⟨event, r', hposts, hok, rfl⟩
    rw [hposts.answer_eq, Reactions.create, objection?_eq_none.2 hok]
    rfl
  · intro hjob
    rcases request_cases req with hq | ⟨event, r', hposts, ha⟩ | ⟨e, n, -, ha⟩
    · rw [job_of_quiet hq] at hjob
      cases hjob
    · rw [ha, Reactions.create] at hjob
      split at hjob
      · cases hjob
      · rename_i ho
        cases hjob
        exact ⟨event, r', hposts, objection?_eq_none.1 ho, rfl⟩
    · rw [ha] at hjob
      cases hjob

theorem Enters.unique {r' : Reaction} (h : Enters req r) (h' : Enters req r') : r' = r := by
  have hjob := (enters_iff.1 h').symm.trans (enters_iff.1 h)
  injection hjob

theorem job_of_not_deletes (h : ∀ e n, ¬ Deletes req e n) : (answer req).job.Adds := by
  rcases request_cases req with hq | ⟨event, r, hposts, ha⟩ | ⟨e, n, hdeletes, -⟩
  · rw [job_of_quiet hq]
    trivial
  · rw [ha, Reactions.create]
    split <;> trivial
  · exact absurd hdeletes (h e n)

/-- A request that deletes nothing creates a reaction or is quiet. -/
theorem enters_or_quiet (h : ∀ e n, ¬ Deletes req e n) :
    (∃ r, Enters req r ∧ Proper r ∧ answer req = .call (.create r) (Reactions.afterCreate r)) ∨
      (∀ r, ¬ Enters req r) ∧ (answer req).Quiet := by
  rcases answer_cases req with hq | ⟨r, hr, ha⟩ | ⟨e, n, ha⟩
  · refine Or.inr ⟨fun r hr => ?_, hq⟩
    rw [enters_iff, job_of_quiet hq] at hr
    cases hr
  · exact Or.inl ⟨r, enters_iff.2 (by rw [ha]; rfl), hr, ha⟩
  · have hadds := job_of_not_deletes h
    rw [ha] at hadds
    exact hadds.elim

/-! ## How far they are -/

/-- How far the creation of a reaction is. -/
inductive Creates (b : Board) (r : Reaction) : Handler → Prop
  | posed : Creates b r (.call (.create r) (Reactions.afterCreate r))
  | entered : Creates b r (.call (.activate r) (Reactions.afterActivate r))
  | won : b.active r.key = some r → Creates b r (.reply (.json 201 r.toJson))
  | lost {resp : Response} :
      resp.status = 409 → b.persisted r.key ≠ none → Creates b r (.reply resp)

theorem Creates.keeps {b b' : Board} {h : Handler} (hb : b.Keeps b') (hc : Creates b r h) :
    Creates b' r h := by
  cases hc with
  | posed => exact .posed
  | entered => exact .entered
  | won hr => exact .won (hb.active _ _ hr)
  | lost hstatus hsome =>
    obtain ⟨r', hr'⟩ := Option.ne_none_iff_exists'.1 hsome
    exact .lost hstatus (by rw [hb.persisted _ _ hr']; exact nofun)

/-- A request with what its handler still has to do. -/
abbrev Run := Request × Handler

/-- How far a request is that deletes nothing. -/
def Stands (b : Board) (run : Run) : Prop :=
  (∃ r, Enters run.1 r ∧ Proper r ∧ Creates b r run.2) ∨
    (∀ r, ¬ Enters run.1 r) ∧ run.2.Quiet

theorem Stands.keeps {b b' : Board} {run : Run} (hb : b.Keeps b') (h : Stands b run) :
    Stands b' run :=
  h.imp (fun ⟨r, henters, hr, hc⟩ => ⟨r, henters, hr, hc.keeps hb⟩) id

theorem stands_answer (h : ∀ e n, ¬ Deletes req e n) (b : Board) : Stands b (req, answer req) := by
  rcases enters_or_quiet h with ⟨r, henters, hr, ha⟩ | hquiet
  · exact Or.inl ⟨r, henters, hr, ha ▸ .posed⟩
  · exact Or.inr hquiet

/-- A request under a key has been answered with its reaction. -/
def wins (k : Key) : Run → Bool
  | (req, .reply resp) => (answer req).job.target? == some (.create, k) && resp.status == 201
  | (_, .call ..) => false

theorem wins_reply (henters : Enters req r) (resp : Response) :
    wins k (req, .reply resp) = (decide (r.key = k) && resp.status == 201) := by
  rw [wins, enters_iff.1 henters, Job.target?]
  by_cases hk : r.key = k <;> simp [hk]

theorem wins_of_not_enters (h : ∀ r, ¬ Enters req r) (hd : Handler) : wins k (req, hd) = false := by
  cases hd with
  | call a next => rfl
  | reply resp =>
    rw [wins, Bool.and_eq_false_imp]
    intro htarget
    obtain ⟨r, hr, -⟩ := Job.target?_eq_create.1 (beq_iff_eq.1 htarget)
    exact absurd (enters_iff.2 hr) (h r)

theorem wins_answer (h : ∀ e n, ¬ Deletes req e n) : wins k (req, answer req) = false := by
  rcases enters_or_quiet h with ⟨r, -, -, ha⟩ | ⟨hnot, -⟩
  · rw [ha]
    rfl
  · exact wins_of_not_enters hnot _

/-! ## Calls -/

/-- As many requests more have been answered with a reaction under a key as
    reactions have become active under it. -/
def Tallies (k : Key) (b : Board) (run : Run) (b' : Board) (run' : Run) : Prop :=
  (wins k run').toNat + (b.active k).isSome.toNat = (wins k run).toNat + (b'.active k).isSome.toNat

/-- Where a call takes a request, and the board. -/
structure Goes (b : Board) (run : Run) (b' : Board) (run' : Run) : Prop where
  stands : Stands b' run'
  keeps : b.Keeps b'
  tallies : ∀ k, Tallies k b run b' run'

theorem goes_of_create (hs : s.Sound) (henters : Enters req r) (hr : Proper r) :
    let p := (Handler.call (.create r) (Reactions.afterCreate r)).step s
    Goes s.board (req, .call (.create r) (Reactions.afterCreate r)) p.2.board (req, p.1) := by
  rw [step_call]
  rcases Access.run_create r s with ⟨t, hc, hrun⟩ | ⟨row, hf, hrun⟩
  · have hnone := hs.persisted_eq_none.2 (Storage.create_eq_ok.1 hc).1
    rw [hrun]
    dsimp only
    rw [(hs.created hr hc).2]
    exact ⟨Or.inl ⟨r, henters, hr, .entered⟩, Board.keeps_persist hnone _, fun k => rfl⟩
  · have hsome : s.board.persisted r.key ≠ none := by
      rw [Reaction.key, ne_eq, hs.persisted_eq_none, hf]
      exact Option.some_ne_none row
    rw [hrun]
    refine ⟨Or.inl ⟨r, henters, hr, .lost rfl hsome⟩, .refl _, fun k => ?_⟩
    show (wins k (req, .reply _)).toNat + _ = _
    rw [wins_reply henters]
    simp [wins, ApiError.response, Response.json, ApiError.ofService, ApiError.status]

theorem goes_of_activate (hs : s.Sound) (henters : Enters req r) (hr : Proper r)
    (hnone : s.board.active r.key = none) :
    let p := (Handler.call (.activate r) (Reactions.afterActivate r)).step s
    Goes s.board (req, .call (.activate r) (Reactions.afterActivate r)) p.2.board (req, p.1) := by
  rw [step_call]
  rcases Access.run_activate r s with ⟨t, ha, hrun⟩ | ⟨r', hf, -⟩
  · rw [hr.named] at ha
    rw [hrun]
    dsimp only
    rw [(hs.activated ha).2]
    refine ⟨Or.inl ⟨r, henters, hr, .won (by simp)⟩, Board.keeps_activate hnone _, fun k => ?_⟩
    show (wins k (req, .reply _)).toNat + _ = _
    rw [wins_reply henters, Board.activate_active]
    by_cases hk : k = r.key
    · subst hk
      simp [hnone, wins, Response.json]
    · simp [hk, Ne.symm hk, wins]
  · rw [show s.board.active r.key = some r' from hf] at hnone
    cases hnone

/-- **A call takes a request further.** -/
theorem Stands.step (hs : s.Sound) {run : Run} (h : Stands s.board run)
    (hfree : ∀ r, run.2.job = .activate r → s.board.active r.key = none) :
    Goes s.board run (run.2.step s).2.board (run.1, (run.2.step s).1) := by
  obtain ⟨req, hd⟩ := run
  rcases h with ⟨r, henters, hr, hc⟩ | ⟨hnot, hq⟩
  · dsimp only at hc henters
    cases hc with
    | posed => exact goes_of_create hs henters hr
    | entered => exact goes_of_activate hs henters hr (hfree r rfl)
    | won hactive => exact ⟨Or.inl ⟨r, henters, hr, .won hactive⟩, .refl _, fun k => rfl⟩
    | lost hstatus hsome =>
      exact ⟨Or.inl ⟨r, henters, hr, .lost hstatus hsome⟩, .refl _, fun k => rfl⟩
  · obtain ⟨hq', hstore, hstorage⟩ := hq.step s
    have hboard := Service.board_congr hstore hstorage
    refine ⟨Or.inr ⟨hnot, hq'⟩, hboard ▸ .refl _, fun k => ?_⟩
    rw [Tallies, hboard, wins_of_not_enters hnot, wins_of_not_enters hnot]

/-! ## All requests -/

namespace Crowd

/-- All requests, answered or not. -/
def runs (c : Crowd) : List Run :=
  c.busy ++ (c.waiting.map (fun req => (req, answer req)) ++
    c.answered.map fun p => (p.1, .reply p.2))

/-- A request is begun, or its response given, which changes nothing; or one makes
    a call. -/
theorem runs_move {c d : Crowd} {m : Move} (hm : c.move? m = some d) :
    (c.runs.Perm d.runs ∧ d.service.board = c.service.board) ∨
      ∃ run ∈ c.busy, ∃ rest, c.runs.Perm (run :: rest) ∧
        d.runs.Perm ((run.1, (run.2.step c.service).1) :: rest) ∧
        d.service = (run.2.step c.service).2 := by
  cases m with
  | begin i =>
    obtain ⟨req, hreq, -⟩ := Option.map_eq_some_iff.1 hm
    rw [move?_begin hreq] at hm
    cases hm
    obtain ⟨hi, rfl⟩ := List.getElem?_eq_some_iff.1 hreq
    refine Or.inl ⟨?_, rfl⟩
    have hperm := (List.getElem_cons_eraseIdx_perm hi).symm.map fun req => (req, answer req)
    simp only [runs, List.append_assoc]
    exact (hperm.append_right _).append_left _
  | call i =>
    obtain ⟨⟨req, h⟩, hb, -⟩ := Option.map_eq_some_iff.1 hm
    rw [move?_call hb] at hm
    cases hm
    obtain ⟨hi, hrun⟩ := List.getElem?_eq_some_iff.1 hb
    have hperm : c.busy.Perm ((req, h) :: c.busy.eraseIdx i) :=
      hrun ▸ (List.getElem_cons_eraseIdx_perm hi).symm
    exact Or.inr ⟨(req, h), List.mem_of_getElem? hb, _, hperm.append_right _,
      (List.set_perm_cons_eraseIdx hi _).append_right _, rfl⟩
  | reply i =>
    obtain ⟨req, resp, hb⟩ : ∃ req resp, c.busy[i]? = some (req, .reply resp) := by
      simp only [move?] at hm
      split at hm
      · rename_i req resp hb
        exact ⟨req, resp, hb⟩
      · cases hm
    rw [move?_reply hb] at hm
    cases hm
    obtain ⟨hi, hrun⟩ := List.getElem?_eq_some_iff.1 hb
    refine Or.inl ⟨?_, rfl⟩
    have hperm := hrun ▸ (List.getElem_cons_eraseIdx_perm hi).symm
    refine (hperm.append_right _).trans ((List.perm_append_singleton _ _).symm.trans ?_)
    simp [runs]
  | pass now =>
    cases hm
    exact Or.inl ⟨.refl _, rfl⟩

theorem Reachable.moves : ∀ {moves : List Move} {c d : Crowd}, Reachable s reqs c →
    moves.foldlM move? c = some d → Reachable s reqs d
  | [], _, _, hc, h => by cases h; exact hc
  | m :: _, _, _, hc, h => by
    obtain ⟨c', hm, h⟩ := Option.bind_eq_some_iff.1 h
    exact (hc.move m hm).moves h

theorem runs_start (s : Service) (reqs : List Request) :
    (start s reqs).runs = reqs.map fun req => (req, answer req) := by
  simp [runs, start]

theorem runs_of_all_answered {c : Crowd} (hwaiting : c.waiting = []) (hbusy : c.busy = []) :
    c.runs = c.answered.map fun p => (p.1, .reply p.2) := by
  simp [runs, hwaiting, hbusy]

/-- No request is lost, and none comes in addition. -/
theorem Reachable.runs_perm {c : Crowd} (hc : Reachable s reqs c) :
    (c.runs.map Prod.fst).Perm reqs := by
  induction hc with
  | start => simp [runs_start, Function.comp_def]
  | move m _ hm ih =>
    rcases runs_move hm with ⟨hperm, -⟩ | ⟨run, -, rest, hperm, hperm', -⟩
    · exact (hperm.symm.map _).trans ih
    · exact ((hperm'.map Prod.fst).trans (hperm.map Prod.fst).symm).trans ih

/-- Where nothing is deleted nothing is ever taken out. -/
theorem Reachable.peaceful (hs : s.Agrees) (hdel : ∀ req ∈ reqs, ∀ e n, ¬ Deletes req e n)
    {c : Crowd} (hc : Reachable s reqs c) :
    c.Orderly ∧ Peaceful c.jobs c.service.board := by
  have hadds : ∀ req ∈ reqs, (answer req).job.Adds := fun req hreq =>
    job_of_not_deletes (hdel req hreq)
  refine hc.induct hs.sound ⟨fun j hj => ?_, fun k => calm_start hs fun hk => ?_⟩ Peaceful.advance
  · obtain ⟨req, hreq, rfl⟩ : ∃ req ∈ reqs, (answer req).job = j := by
      simpa [jobs, Crowd.start] using hj
    exact hadds req hreq
  · obtain ⟨req, hreq, hjob⟩ := List.countP_pos_iff.1 (Nat.zero_lt_of_lt hk.2)
    have hadd := hadds req hreq
    rw [of_decide_eq_true hjob] at hadd
    exact hadd.elim

end Crowd

/-! ## One winner -/

/-- What is active was there at the start, or one request has been answered with
    it. -/
structure Race (s : Service) (c : Crowd) : Prop where
  stands : ∀ run ∈ c.runs, Stands c.service.board run
  keeps : s.board.Keeps c.service.board
  winners : ∀ k, c.runs.countP (wins k) + (s.board.active k).isSome.toNat =
    (c.service.board.active k).isSome.toNat

theorem race_start (s : Service) (hdel : ∀ req ∈ reqs, ∀ e n, ¬ Deletes req e n) :
    Race s (.start s reqs) := by
  refine ⟨fun run hrun => ?_, .refl _, fun k => ?_⟩
  · rw [Crowd.runs_start] at hrun
    obtain ⟨req, hreq, rfl⟩ := List.mem_map.1 hrun
    exact stands_answer (hdel req hreq) _
  · rw [Crowd.runs_start, List.countP_eq_zero.2, Nat.zero_add]
    · rfl
    · intro run hrun
      obtain ⟨req, hreq, rfl⟩ := List.mem_map.1 hrun
      simp [wins_answer (hdel req hreq)]

theorem Race.move {c d : Crowd} (h : Race s c) (hc : c.Orderly)
    (hp : Peaceful c.jobs c.service.board) {m : Crowd.Move} (hm : c.move? m = some d) :
    Race s d := by
  rcases Crowd.runs_move hm with ⟨hperm, hboard⟩ | ⟨run, hrun, rest, hperm, hperm', hd⟩
  · refine ⟨fun run hrun => ?_, hboard ▸ h.keeps, fun k => ?_⟩
    · exact hboard ▸ h.stands run (hperm.mem_iff.2 hrun)
    · rw [hboard, ← hperm.countP_eq]
      exact h.winners k
  · have hmem : run.2.job ∈ c.jobs := List.mem_append_right _ (List.mem_map_of_mem hrun)
    have hgoes := (h.stands run (hperm.mem_iff.2 List.mem_cons_self)).step hc.sound
      fun r hr => hp.active_eq_none (hr ▸ hmem)
    rw [← hd] at hgoes
    refine ⟨fun run' hrun' => ?_, h.keeps.trans hgoes.keeps, fun k => ?_⟩
    · rcases List.mem_cons.1 (hperm'.mem_iff.1 hrun') with rfl | hrest
      · exact hgoes.stands
      · exact (h.stands run' (hperm.mem_iff.2 (List.mem_cons_of_mem _ hrest))).keeps hgoes.keeps
    · have hwinners := h.winners k
      have htallies := hgoes.tallies k
      have hite (b : Bool) : (if b = true then 1 else 0) = b.toNat := by cases b <;> rfl
      rw [hperm.countP_eq, List.countP_cons, hite] at hwinners
      rw [hperm'.countP_eq, List.countP_cons, hite]
      rw [Tallies] at htallies
      omega

theorem Crowd.Reachable.race (hs : s.Agrees) (hdel : ∀ req ∈ reqs, ∀ e n, ¬ Deletes req e n)
    {c : Crowd} (hc : Reachable s reqs c) : Race s c := by
  induction hc with
  | start => exact race_start s hdel
  | move m hc hm ih =>
    obtain ⟨horderly, hpeaceful⟩ := hc.peaceful hs hdel
    exact ih.move horderly hpeaceful hm

/-! ## When all have been answered -/

/-- The same reaction is active and persisted under a key. -/
def Service.Has (s : Service) (e n : String) (r : Reaction) : Prop :=
  s.engine.store.get e n = .ok r ∧ s.storage.get e n = .ok (some r)

/-- Whoever wanted a key has been refused. -/
def AllRefused (answered : List (Request × Response)) (e n : String) : Prop :=
  ∀ p ∈ answered, Wants p.1 e n → p.2.status = 409

/-- One request for a key has been answered with its reaction, which is there now,
    and whoever else wanted the key has been refused. -/
def OneWon (answered : List (Request × Response)) (t : Service) (e n : String) : Prop :=
  ∃ before req r after, answered = before ++ (req, .json 201 r.toJson) :: after ∧
    (Enters req r ∧ r.event = e ∧ r.name = n) ∧ t.Has e n r ∧ AllRefused (before ++ after) e n

/-- What has become of a key when all requests have been answered: what was there
    stays, or one of those who want it wins. -/
structure Decided (s : Service) (answered : List (Request × Response)) (t : Service)
    (e n : String) : Prop where
  taken : s.IsActive e n → (∃ r, s.Has e n r ∧ t.Has e n r) ∧ AllRefused answered e n
  free : ¬ s.IsActive e n → (∃ p ∈ answered, Wants p.1 e n) → OneWon answered t e n

variable {c : Crowd} {e n : String}

/-- Who has not been answered with a reaction has been refused. -/
theorem refused_of_not_wins {b : Board} {resp : Response} (hstands : Stands b (req, .reply resp))
    (hwants : Wants req e n) (hwins : wins (e, n) (req, .reply resp) = false) :
    resp.status = 409 ∧ b.persisted (e, n) ≠ none := by
  obtain ⟨r, henters, rfl, rfl⟩ := hwants
  rcases hstands with ⟨r', henters', -, hc⟩ | ⟨hnot, -⟩
  · cases henters.unique henters'
    cases hc with
    | won => simp [wins_reply henters, Reaction.key, Response.json] at hwins
    | lost hstatus hsome => exact ⟨hstatus, hsome⟩
  · exact absurd henters (hnot r)

/-- Who has been answered with a reaction has made it active. -/
theorem active_of_wins {b : Board} {resp : Response} (hstands : Stands b (req, .reply resp))
    (hwins : wins k (req, .reply resp)) :
    ∃ r, Enters req r ∧ r.key = k ∧ resp = .json 201 r.toJson ∧ b.active k = some r := by
  rcases hstands with ⟨r, henters, -, hc⟩ | ⟨hnot, hq⟩
  · rw [wins_reply henters, Bool.and_eq_true, decide_eq_true_iff] at hwins
    obtain ⟨rfl, hstatus⟩ := hwins
    cases hc with
    | won hactive => exact ⟨r, henters, rfl, rfl, hactive⟩
    | lost hlost => simp [hlost] at hstatus
  · rw [wins_of_not_enters hnot] at hwins
    cases hwins

/-- What stands on the board holds for every request that has been answered. -/
theorem Race.stands_of_answered (h : Race s c) {resp : Response} (hp : (req, resp) ∈ c.answered) :
    Stands c.service.board (req, .reply resp) :=
  h.stands _ (List.mem_append_right _ (List.mem_append_right _
    (List.mem_map_of_mem (f := fun p : Request × Response => (p.1, Handler.reply p.2)) hp)))

/-- With no request under way the same reactions are active and persisted. -/
theorem Crowd.Reachable.persisted_eq_active (hs : s.Agrees)
    (hdel : ∀ req ∈ reqs, ∀ e n, ¬ Deletes req e n) (hc : Reachable s reqs c)
    (hbusy : c.busy = []) (k : Key) : c.service.board.persisted k = c.service.board.active k := by
  obtain ⟨-, hpeaceful⟩ := hc.peaceful hs hdel
  obtain ⟨-, howned⟩ := hc.induct hs.sound (owned_start hs) Owned.advance
  cases hactive : c.service.board.active k with
  | some r =>
    have hkept := (hpeaceful.calm k).kept (by rw [hactive]; exact nofun)
    exact hkept.1.trans hactive
  | none =>
    cases hpersisted : c.service.board.persisted k with
    | none => rfl
    | some r =>
      rw [howned.active_of_idle hbusy hpersisted] at hactive
      cases hactive

/-- What is under a key in both. -/
theorem Service.has_iff {r : Reaction} :
    s.Has e n r ↔ s.board.active (e, n) = some r ∧ s.board.persisted (e, n) = some r :=
  and_congr Service.active_iff.symm Service.persisted_iff.symm

/-- How many have been answered with a reaction under a key. -/
theorem Race.winners_answered (h : Race s c) (hwaiting : c.waiting = []) (hbusy : c.busy = [])
    (k : Key) :
    c.answered.countP (fun p => wins k (p.1, .reply p.2)) + (s.board.active k).isSome.toNat =
      (c.service.board.active k).isSome.toNat := by
  have hwinners := h.winners k
  rwa [Crowd.runs_of_all_answered hwaiting hbusy, List.countP_map] at hwinners

theorem decided_taken (hs : s.Agrees) (h : Race s c) (hwaiting : c.waiting = [])
    (hbusy : c.busy = []) (hactive : s.IsActive e n) :
    (∃ r, s.Has e n r ∧ c.service.Has e n r) ∧ AllRefused c.answered e n := by
  obtain ⟨r, hr⟩ : ∃ r, s.board.active (e, n) = some r :=
    Option.isSome_iff_exists.1 (Service.isActive_iff.1 hactive)
  have hhas : s.Has e n r := Service.has_iff.2 ⟨hr, (hs.board (e, n)).trans hr⟩
  refine ⟨⟨r, hhas, ?_⟩, ?_⟩
  · obtain ⟨ha, hp⟩ := Service.has_iff.1 hhas
    exact Service.has_iff.2 ⟨h.keeps.active _ _ ha, h.keeps.persisted _ _ hp⟩
  · rintro ⟨req, resp⟩ hp hwants
    have hnone : c.answered.countP (fun p => wins (e, n) (p.1, .reply p.2)) = 0 := by
      have hwinners := h.winners_answered hwaiting hbusy (e, n)
      have hle := Bool.toNat_le (c.service.board.active (e, n)).isSome
      rw [hr, Option.isSome_some, Bool.toNat_true] at hwinners
      omega
    have hwins := Bool.eq_false_iff.2 (List.countP_eq_zero.1 hnone _ hp)
    exact (refused_of_not_wins (h.stands_of_answered hp) hwants hwins).1

/-- What is counted once stands somewhere, and nowhere else. -/
theorem exists_of_countP_eq_one {α : Type} {p : α → Bool} {l : List α} (h : l.countP p = 1) :
    ∃ before x after, l = before ++ x :: after ∧ p x ∧ ∀ y ∈ before ++ after, p y = false := by
  obtain ⟨x, hx, hp⟩ := List.countP_pos_iff.1 (Nat.lt_of_lt_of_eq Nat.one_pos h.symm)
  obtain ⟨before, after, rfl⟩ := List.append_of_mem hx
  refine ⟨before, x, after, rfl, hp, fun y hy => ?_⟩
  have hrest : (before ++ after).countP p = 0 := by
    rw [List.countP_append, List.countP_cons_of_pos hp] at h
    rw [List.countP_append]
    omega
  exact Bool.eq_false_iff.2 (List.countP_eq_zero.1 hrest y hy)

theorem decided_free (h : Race s c)
    (hsame : c.service.board.persisted (e, n) = c.service.board.active (e, n))
    (hwaiting : c.waiting = []) (hbusy : c.busy = []) (hidle : ¬ s.IsActive e n)
    (hwanted : ∃ p ∈ c.answered, Wants p.1 e n) : OneWon c.answered c.service e n := by
  have hnone : s.board.active (e, n) = none := by
    rwa [Service.isActive_iff, Option.not_isSome_iff_eq_none] at hidle
  -- whoever wanted the key, there is a reaction under it now
  have hsome : (c.service.board.active (e, n)).isSome := by
    obtain ⟨⟨req, resp⟩, hp, hwants⟩ := hwanted
    cases hwins : wins (e, n) (req, .reply resp) with
    | true =>
      obtain ⟨r, -, -, -, hactive⟩ := active_of_wins (h.stands_of_answered hp) hwins
      rw [hactive, Option.isSome_some]
    | false =>
      have hpersisted := (refused_of_not_wins (h.stands_of_answered hp) hwants hwins).2
      rwa [hsame, Option.ne_none_iff_isSome] at hpersisted
  have hone : c.answered.countP (fun p => wins (e, n) (p.1, .reply p.2)) = 1 := by
    have hwinners := h.winners_answered hwaiting hbusy (e, n)
    simpa [hnone, hsome] using hwinners
  obtain ⟨before, ⟨req, resp⟩, after, hanswered, hwins, hothers⟩ := exists_of_countP_eq_one hone
  have hstands {p : Request × Response} (hp : p ∈ before ++ (req, resp) :: after) :
      Stands c.service.board (p.1, .reply p.2) := h.stands_of_answered (hanswered ▸ hp)
  obtain ⟨r, henters, hk, rfl, hactive⟩ := active_of_wins (hstands (by simp)) hwins
  refine ⟨before, req, r, after, hanswered, ⟨henters, congrArg Prod.fst hk, congrArg Prod.snd hk⟩,
    Service.has_iff.2 ⟨hactive, hsame.trans hactive⟩, ?_⟩
  rintro ⟨req', resp'⟩ hp hwants
  have hmem : (req', resp') ∈ before ++ (req, Response.json 201 r.toJson) :: after :=
    ((List.sublist_cons_self _ after).append_left before).subset hp
  exact (refused_of_not_wins (hstands hmem) hwants (hothers _ hp)).1

/-- **One winner per key.**  When requests are answered at the same time, in any
    order of their calls, and nothing is deleted: no row is ever about to be taken
    out again; and when all have been answered, every request for a key that
    something is under at the start has been refused, and of those for any other
    key one has been answered with the reaction that is under it now, and all
    others have been refused. -/
theorem one_winner (hs : s.Agrees) (hdel : ∀ req ∈ reqs, ∀ e n, ¬ Deletes req e n)
    (hc : Crowd.Reachable s reqs c) :
    (∀ b ∈ c.busy, ∀ k, b.2.job ≠ .erase k) ∧
      (c.waiting = [] → c.busy = [] →
        (c.answered.map Prod.fst).Perm reqs ∧ ∀ e n, Decided s c.answered c.service e n) := by
  refine ⟨fun b hb k hk => ?_, fun hwaiting hbusy => ⟨?_, fun e n => ⟨?_, ?_⟩⟩⟩
  · obtain ⟨-, hpeaceful⟩ := hc.peaceful hs hdel
    have hadds := hpeaceful.adds b.2.job (List.mem_append_right _ (List.mem_map_of_mem hb))
    rw [hk] at hadds
    exact hadds.elim
  · have hperm := hc.runs_perm
    rwa [Crowd.runs_of_all_answered hwaiting hbusy, List.map_map] at hperm
  · exact decided_taken hs (hc.race hs hdel) hwaiting hbusy
  · exact decided_free (hc.race hs hdel) (hc.persisted_eq_active hs hdel hbusy (e, n)) hwaiting
      hbusy

/-- Two bells that are wanted at the same time: both are begun before either is
    persisted. -/
theorem one_winner_bell :
    let post : Request := ⟨"POST", "/v1/events/door/reactions", some "application/json",
      "\x7b\"name\":\"bell\"\x7d".toUTF8⟩
    let s := Service.new .actions .sources fun _ _ _ => .ok .stop
    let moves : List Crowd.Move :=
      [.begin 0, .begin 0, .call 1, .call 0, .reply 0, .call 0, .reply 0]
    ∃ c, s.Agrees ∧ moves.foldlM Crowd.move? (.start s [post, post]) = some c ∧
      c.answered.map (fun p => p.2.status) = [409, 201] ∧
      ∀ e n, Decided s c.answered c.service e n := by
  intro post s moves
  have hs : s.Agrees := .new ..
  have hmoves : (moves.foldlM Crowd.move? (.start s [post, post])).map (fun c =>
      (c.waiting.length, c.busy.length, c.answered.map fun p => p.2.status)) =
        some (0, 0, [409, 201]) := by decide +kernel
  obtain ⟨c, hc, hend⟩ := Option.map_eq_some_iff.1 hmoves
  simp only [Prod.mk.injEq, List.length_eq_zero_iff] at hend
  obtain ⟨hwaiting, hbusy, hstatus⟩ := hend
  have hdel : ∀ req ∈ [post, post], ∀ e n, ¬ Deletes req e n := by
    rintro req hreq e n ⟨hmethod, -⟩
    have hpost : req = post := by simpa using hreq
    rw [hpost] at hmethod
    exact absurd hmethod (by decide)
  obtain ⟨-, hall⟩ := one_winner hs hdel (Crowd.Reachable.start.moves hc)
  exact ⟨c, hs, hc, hstatus, (hall hwaiting hbusy).2⟩

end Reactor.Http
