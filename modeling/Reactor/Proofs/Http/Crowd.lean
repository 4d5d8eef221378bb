/-
  Requests that are answered at the same time.

  Each request is answered by its handler, which makes one call after the
  other; between two calls of one handler others may make theirs.

  * `Crowd` is a service with the requests that are not begun, those that are
    being answered, and those that have been;
  * `Crowd.Move` is what may happen next, `Crowd.move?` what it leads to; `none`
    if it cannot happen now;
  * `Crowd.Reachable` are the states that moves lead to from a service and
    some requests.
-/
import Mathlib.Data.List.Perm.Basic
import Reactor.Proofs.Http.Board

namespace Reactor.Http

/-- A service and requests to it. -/
structure Crowd where
  service : Service
  /-- requests that are not begun -/
  waiting : List Request
  /-- requests that are being answered, with what their handlers still have to
      do -/
  busy : List (Request × Handler)
  /-- requests that have been answered -/
  answered : List (Request × Response)

namespace Crowd

/-- What may happen next. -/
inductive Move where
  /-- a request is begun -/
  | begin (index : Nat)
  /-- a handler makes a call -/
  | call (index : Nat)
  /-- a response is given -/
  | reply (index : Nat)
  /-- time goes by -/
  | pass (now : Int)

/-- Nothing under way. -/
def start (s : Service) (reqs : List Request) : Crowd := ⟨s, reqs, [], []⟩

/-- What a move leads to. -/
def move? (c : Crowd) : Move → Option Crowd
  | .begin i =>
    c.waiting[i]?.map fun req =>
      { c with waiting := c.waiting.eraseIdx i, busy := c.busy ++ [(req, answer req)] }
  | .call i =>
    c.busy[i]?.map fun (req, h) =>
      let (h, service) := h.step c.service
      { c with service, busy := c.busy.set i (req, h) }
  | .reply i =>
    match c.busy[i]? with
    | some (req, .reply r) =>
      some { c with busy := c.busy.eraseIdx i, answered := c.answered ++ [(req, r)] }
    | _ => none
  | .pass now => some { c with service := { c.service with now } }

/-- The states that moves lead to from a service and some requests. -/
inductive Reachable (s : Service) (reqs : List Request) : Crowd → Prop
  | start : Reachable s reqs (.start s reqs)
  | move {c d : Crowd} (m : Move) :
      Reachable s reqs c → c.move? m = some d → Reachable s reqs d

theorem move?_begin {c : Crowd} {i : Nat} {req : Request} (h : c.waiting[i]? = some req) :
    c.move? (.begin i) = some
      { c with waiting := c.waiting.eraseIdx i, busy := c.busy ++ [(req, answer req)] } := by
  rw [move?, h]; rfl

theorem move?_call {c : Crowd} {i : Nat} {req : Request} {h : Handler}
    (hb : c.busy[i]? = some (req, h)) :
    c.move? (.call i) = some
      { c with
        service := (h.step c.service).2
        busy := c.busy.set i (req, (h.step c.service).1) } := by
  rw [move?, hb]; rfl

theorem move?_reply {c : Crowd} {i : Nat} {req : Request} {r : Response}
    (hb : c.busy[i]? = some (req, .reply r)) :
    c.move? (.reply i) = some
      { c with busy := c.busy.eraseIdx i, answered := c.answered ++ [(req, r)] } := by
  rw [move?, hb]

/-! ## Jobs of a crowd -/

/-- The jobs of requests that are not begun and of handlers under way. -/
def jobs (c : Crowd) : List Job :=
  c.waiting.map (fun req => (answer req).job) ++ c.busy.map fun b => b.2.job

/-- The jobs without those of one handler. -/
def jobsWithout (c : Crowd) (i : Nat) : List Job :=
  c.waiting.map (fun req => (answer req).job) ++ (c.busy.eraseIdx i).map fun b => b.2.job

theorem jobs_perm {c : Crowd} {i : Nat} {b : Request × Handler} (hb : c.busy[i]? = some b) :
    c.jobs.Perm (b.2.job :: c.jobsWithout i) := by
  obtain ⟨hi, rfl⟩ := List.getElem?_eq_some_iff.1 hb
  have hperm := (List.getElem_cons_eraseIdx_perm hi).symm.map fun b => b.2.job
  exact (hperm.append_left _).trans List.perm_middle

theorem jobs_set_perm {c : Crowd} {i : Nat} (hi : i < c.busy.length) (b : Request × Handler)
    (s : Service) :
    (jobs { c with service := s, busy := c.busy.set i b }).Perm (b.2.job :: c.jobsWithout i) := by
  have hperm := (List.set_perm_cons_eraseIdx hi b).map fun b => b.2.job
  exact (hperm.append_left _).trans List.perm_middle

theorem jobs_begin_perm {c : Crowd} {i : Nat} {req : Request} (h : c.waiting[i]? = some req) :
    c.jobs.Perm (jobs
      { c with waiting := c.waiting.eraseIdx i, busy := c.busy ++ [(req, answer req)] }) := by
  obtain ⟨hi, rfl⟩ := List.getElem?_eq_some_iff.1 h
  have hperm := (List.getElem_cons_eraseIdx_perm hi).symm.map fun req => (answer req).job
  refine (hperm.append_right _).trans ?_
  rw [List.map_cons, List.cons_append]
  refine (List.perm_append_singleton _ _).symm.trans ?_
  simp [jobs]

/-- The service is sound, and handlers are what is left of requests. -/
structure Orderly (c : Crowd) : Prop where
  sound : c.service.Sound
  parts : ∀ b ∈ c.busy, Part b.2

/-- **A move keeps order** and takes effect as the jobs say. -/
theorem Orderly.move {c d : Crowd} (hc : c.Orderly) {m : Move} (hm : c.move? m = some d) :
    d.Orderly ∧ Advance c.jobs c.service.board d.jobs d.service.board := by
  cases m with
  | begin i =>
    obtain ⟨req, hreq, -⟩ := Option.map_eq_some_iff.1 hm
    rw [move?_begin hreq] at hm
    cases hm
    refine ⟨⟨hc.sound, fun b hb => ?_⟩, .stays (jobs_begin_perm hreq)⟩
    rcases List.mem_append.1 hb with hb | hb
    · exact hc.parts b hb
    · rw [List.mem_singleton.1 hb]; exact part_of_handled (answer_cases req)
  | call i =>
    obtain ⟨⟨req, h⟩, hb, -⟩ := Option.map_eq_some_iff.1 hm
    rw [move?_call hb] at hm
    cases hm
    obtain ⟨hpart, hsound, heffect⟩ := (hc.parts _ (List.mem_of_getElem? hb)).step hc.sound
    refine ⟨⟨hsound, fun b hb => ?_⟩, .works (jobs_perm hb) (jobs_set_perm ?_ _ _) heffect⟩
    · rcases List.mem_or_eq_of_mem_set hb with hb | rfl
      · exact hc.parts b hb
      · exact hpart
    · exact (List.getElem?_eq_some_iff.1 hb).1
  | reply i =>
    obtain ⟨req, r, hb⟩ : ∃ req r, c.busy[i]? = some (req, .reply r) := by
      simp only [move?] at hm
      split at hm
      · rename_i req r hb; exact ⟨req, r, hb⟩
      · cases hm
    rw [move?_reply hb] at hm
    cases hm
    exact ⟨⟨hc.sound, fun b hb => hc.parts b (List.mem_of_mem_eraseIdx hb)⟩, .ends (jobs_perm hb)⟩
  | pass now =>
    cases hm
    exact ⟨⟨hc.sound.congr rfl rfl, hc.parts⟩, .stays (.refl _)⟩

/-- What the jobs and the board keep from move to move, they keep for ever. -/
theorem Reachable.induct {s : Service} {reqs : List Request} (hs : s.Sound)
    {P : List Job → Board → Prop} (hstart : P (Crowd.start s reqs).jobs s.board)
    (hadvance : ∀ {jobs jobs' b b'}, P jobs b → Advance jobs b jobs' b' → P jobs' b') {c : Crowd}
    (hc : Reachable s reqs c) : c.Orderly ∧ P c.jobs c.service.board := by
  induction hc with
  | start => exact ⟨⟨hs, nofun⟩, hstart⟩
  | move m _ hm ih =>
    obtain ⟨horderly, hP⟩ := ih
    obtain ⟨horderly, ha⟩ := horderly.move hm
    exact ⟨horderly, hadvance hP ha⟩

/-! ## No handler under way -/

/-- Requests that are not begun are not about to activate or erase anything. -/
theorem jobs_of_idle {c : Crowd} (hc : c.busy = []) {j : Job} (hj : j ∈ c.jobs) :
    j = .none ∨ (∃ r, j = .create r) ∨ ∃ k, j = .deactivate k := by
  rw [jobs, hc, List.map_nil, List.append_nil] at hj
  obtain ⟨req, -, rfl⟩ := List.mem_map.1 hj
  exact (job_of_handled (answer_cases req)).imp id (Or.imp (fun ⟨r, _, h⟩ => ⟨r, h⟩) id)

theorem pending_idle {c : Crowd} (hc : c.busy = []) (t : Task) (k : Key) :
    pending c.jobs t k = c.waiting.countP fun req => (answer req).job.target? == some (t, k) := by
  rw [jobs, hc, List.map_nil, List.append_nil, pending, List.countP_map]
  rfl

theorem pending_idle_eq_zero {c : Crowd} (hc : c.busy = []) {t : Task}
    (ht : t = .activate ∨ t = .fetch ∨ t = .erase) (k : Key) : pending c.jobs t k = 0 := by
  refine List.countP_eq_zero.2 fun j hj => ?_
  rcases jobs_of_idle hc hj with rfl | ⟨r, rfl⟩ | ⟨k', rfl⟩ <;>
    rcases ht with rfl | rfl | rfl <;> simp [Job.target?]

end Crowd

end Reactor.Http
