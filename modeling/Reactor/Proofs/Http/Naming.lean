/-
  The names of steps.

  A step that comes in without a name is named by its key, and one with a name
  keeps it, however it comes in: in the body of a request, from the program that
  embeds the engine, or in a row that anyone has written.

  * `Reaction.Keyed` and `Reaction.Keyable` say that steps are named by their
    keys, and that none comes in with another name; `keyed_normalize_iff`: the
    one follows if and only if the other holds;
  * `Handler.Within` says that a handler lets in and gives only reactions with
    some property, if all that it is shown have it; `answer_within`: those of
    requests do;
  * a `Happening` is what may happen to a service and the requests to it, and
    `Brings` says which reactions come in with it;
  * `shown_keyed_iff`: the steps of an active reaction, and of one in a response,
    are named by their keys if and only if the reaction came in so.
-/
import Reactor.Proofs.Http.Crowd
import Reactor.Proofs.Http.History
import Reactor.Proofs.Model

namespace Reactor

namespace Reaction

/-- Each step is named by its key. -/
def Keyed (r : Reaction) : Prop := ∀ f ∈ r.steps, f.2.name = f.1

/-- No step has a name other than its key. -/
def Keyable (r : Reaction) : Prop := ∀ f ∈ r.steps, f.2.name = "" ∨ f.2.name = f.1

theorem named_name_iff {k : String} {s : ActionStep} :
    (named k s).name = k ↔ s.name = "" ∨ s.name = k := by
  unfold named
  by_cases hs : s.name = "" <;> simp [hs]

theorem keyed_normalize_iff {r : Reaction} : r.normalize.Keyed ↔ r.Keyable := by
  unfold Keyed Keyable
  rw [normalize_steps, List.forall_mem_map]
  exact forall₂_congr fun f _ => named_name_iff

end Reaction

namespace Http

variable {P : Reaction → Prop}

/-! ## What calls let in and give -/

/-- All active reactions, and all that rows hold, have some property. -/
structure Service.Within (P : Reaction → Prop) (s : Service) : Prop where
  active : ∀ r ∈ s.engine.store.all, P r
  persisted : ∀ row ∈ s.storage.rows, ∀ r, row.reaction = .ok r → P r

/-- A call that lets in only reactions with some property. -/
def Access.LetsIn (P : Reaction → Prop) {α : Type} : Access α → Prop
  | .create r => r.steps.Sorted ∧ P r.normalize
  | .activate r => P r.normalize
  | _ => True

/-- What a call gives when all reactions have some property. -/
def Access.Gives (P : Reaction → Prop) {α : Type} : Access α → α → Prop
  | .list _, x => ∀ rs, x = .ok rs → ∀ r ∈ rs, P r
  | .view look, x => ∃ e : Engine, (∀ r ∈ e.store.all, P r) ∧ look e = x
  | _, _ => True

namespace Service.Within

variable {s : Service}

theorem store (hs : s.Within P) {t : Store} (ht : ∀ r ∈ t.all, P r) : (s.withStore t).Within P :=
  ⟨ht, hs.persisted⟩

theorem change (hs : s.Within P) {r : Reaction} (hr : P r.normalize) :
    (s.change (s.engine.add r)).2.Within P := by
  cases h : s.engine.add r with
  | error e => exact hs
  | ok x =>
    obtain ⟨t, ht, hx⟩ := Except.bind_eq_ok.1 h
    cases hx
    show (s.withStore t).Within P
    refine hs.store fun r' hr' => ?_
    rcases Store.mem_all_of_add ht hr' with rfl | hr'
    · exact hr
    · exact hs.active r' hr'

theorem remove (hs : s.Within P) (e n : String) : (s.change (s.engine.remove e n)).2.Within P := by
  cases h : s.engine.remove e n with
  | error e => exact hs
  | ok x =>
    obtain ⟨⟨r, t⟩, ht, hx⟩ := Except.bind_eq_ok.1 h
    cases hx
    show (s.withStore t).Within P
    exact hs.store fun r' hr' => hs.active r' (Store.mem_all_of_remove ht hr')

theorem seed {e : Engine} (he : ∀ r ∈ e.store.all, P r) {rs : List Reaction}
    (hrs : ∀ r ∈ rs, P r.normalize) : ∀ r ∈ (e.seed rs).2.store.all, P r := by
  intro r hr
  rcases Store.mem_all_of_seed hr with hr | hr
  · obtain ⟨g, hg, rfl⟩ := List.mem_map.1 hr
    exact hrs g hg
  · exact he r hr

theorem create (hs : s.Within P) {r : Reaction} (hsorted : r.steps.Sorted) (hr : P r.normalize)
    {t : Storage} (ht : s.storage.create s.now r = .ok t) :
    ({ s with storage := t } : Service).Within P := by
  obtain ⟨-, rfl⟩ := Storage.create_eq_ok.1 ht
  refine ⟨hs.active, fun row hrow r' hr' => ?_⟩
  rcases List.mem_append.1 hrow with hrow | hrow
  · exact hs.persisted row hrow r' hr'
  · rw [List.mem_singleton.1 hrow] at hr'
    cases (Storage.reaction_rowOf hsorted s.storage s.now).symm.trans hr'
    exact hr

theorem delete (hs : s.Within P) {e n : String} {t : Storage}
    (ht : s.storage.delete e n = .ok t) : ({ s with storage := t } : Service).Within P := by
  obtain ⟨-, rfl⟩ := Storage.delete_eq_ok.1 ht
  exact ⟨hs.active, fun row hrow => hs.persisted row (List.mem_of_mem_filter hrow)⟩

end Service.Within

/-- **A call keeps what it is within**, and gives what has the property. -/
theorem Access.LetsIn.run {α : Type} {a : Access α} (ha : a.LetsIn P) {s : Service}
    (hs : s.Within P) : (a.run s).2.Within P ∧ a.Gives P (a.run s).1 := by
  cases a with
  | create r =>
    rcases Access.run_create r s with ⟨t, ht, hrun⟩ | ⟨row, -, hrun⟩
    · rw [hrun]; exact ⟨hs.create ha.1 ha.2 ht, trivial⟩
    · rw [hrun]; exact ⟨hs, trivial⟩
  | delete e n =>
    rcases Access.run_delete e n s with ⟨t, ht, hrun⟩ | ⟨-, hrun⟩
    · rw [hrun]; exact ⟨hs.delete ht, trivial⟩
    · rw [hrun]; exact ⟨hs, trivial⟩
  | fetch e n => exact ⟨hs, trivial⟩
  | list event? =>
    cases event? with
    | none =>
      refine ⟨hs, fun rs hrs r hr => ?_⟩
      obtain ⟨row, hrow, hread⟩ := Storage.exists_row_of_all hrs hr
      exact hs.persisted row hrow r hread
    | some e =>
      refine ⟨hs, fun rs hrs r hr => ?_⟩
      obtain ⟨row, hrow, hread⟩ := Storage.exists_row_of_forEvent hrs hr
      exact hs.persisted row hrow r hread
  | activate r => exact ⟨hs.change ha, trivial⟩
  | deactivate e n => exact ⟨hs.remove e n, trivial⟩
  | launch e => exact ⟨⟨hs.active, hs.persisted⟩, trivial⟩
  | view look => exact ⟨hs, s.engine, hs.active, rfl⟩
  | uptime => exact ⟨hs, trivial⟩

/-! ## What handlers let in and answer -/

/-- The paths under which reactions are found. -/
def Route.isOfReactions : Route → Bool
  | .reactions | .eventReactions _ | .reaction .. => true
  | _ => false

/-- A request for reactions. -/
def Request.isForReactions (req : Request) : Bool :=
  (Route.ofSegments? (Target.parse req.target).segments).any Route.isOfReactions

/-- The reactions that a body carries: one, or a list. -/
def Body.reactions : Body → List Reaction
  | .json (.arr js) => js.map Reaction.ofJson
  | .json j => [Reaction.ofJson j]
  | _ => []

/-- The reactions that the response to a request carries. -/
def Response.reactions (req : Request) (resp : Response) : List Reaction :=
  if req.isForReactions ∧ resp.status < 400 then resp.body.reactions else []

/-- A handler that lets in only reactions with some property, and answers with
    such only, if all that its calls give have it. -/
def Handler.Within (P : Reaction → Prop) (req : Request) : Handler → Prop
  | .reply resp => ∀ r ∈ resp.reactions req, P r
  | .call a next => a.LetsIn P ∧ ∀ x, a.Gives P x → (next x).Within P req

variable {req : Request}

theorem Handler.Within.step {h : Handler} (hh : h.Within P req) {s : Service} (hs : s.Within P) :
    (h.step s).2.Within P ∧ (h.step s).1.Within P req := by
  cases h with
  | reply resp => exact ⟨hs, hh⟩
  | call a next =>
    obtain ⟨hservice, hgives⟩ := hh.1.run hs
    exact ⟨hservice, hh.2 _ hgives⟩

theorem reactions_of_failed {resp : Response} (h : 400 ≤ resp.status) :
    resp.reactions req = [] := if_neg fun hr => absurd hr.2 (Nat.not_lt.2 h)

theorem within_reply {resp : Response} (h : ∀ r ∈ resp.body.reactions, P r) :
    (Handler.reply resp).Within P req := by
  intro r hr
  unfold Response.reactions at hr
  split at hr
  · exact h r hr
  · cases hr

theorem within_bare (status : Nat) : (Handler.reply (.bare status)).Within P req :=
  within_reply fun _ hr => nomatch hr

theorem within_text (status : Nat) (s : String) :
    (Handler.reply (.text status s)).Within P req := within_reply fun _ hr => nomatch hr

theorem within_refuse (e : ApiError) : (Handler.refuse e).Within P req := by
  have hfailed : 400 ≤ e.response.status := by
    show 400 ≤ e.status
    cases e <;> simp [ApiError.status]
  intro r hr
  rw [reactions_of_failed hfailed] at hr
  cases hr

theorem within_json {status : Nat} {r : Reaction} (hr : P r) :
    (Handler.reply (.json status r.toJson)).Within P req := by
  refine within_reply fun r' hr' => ?_
  cases List.mem_singleton.1 hr'
  rwa [Reaction.ofJson_toJson]

theorem within_reactionsJson {status : Nat} {rs : List Reaction} (hrs : ∀ r ∈ rs, P r) :
    (Handler.reply (.json status (Handler.reactionsJson rs))).Within P req := by
  refine within_reply fun r hr => ?_
  obtain ⟨j, hj, rfl⟩ := List.mem_map.1 hr
  obtain ⟨r', hr', rfl⟩ := List.mem_map.1 hj
  rw [Reaction.ofJson_toJson]
  exact hrs r' hr'

theorem within_segment (name raw : String) {next : String → Handler}
    (h : ∀ s, decodeSegment raw = some s → (next s).Within P req) :
    (Handler.withSegment name raw next).Within P req := by
  unfold Handler.withSegment
  split
  · rename_i s hs; exact h s hs
  · exact within_text _ _

theorem within_eventFilter (query : String) {next : Option String → Handler}
    (h : ∀ e?, (next e?).Within P req) : (Handler.withEventFilter query next).Within P req := by
  unfold Handler.withEventFilter
  split
  · exact h _
  · exact h _
  · exact within_text _ _

theorem within_body (req' : Request) (form : Json.Decoder Json) {next : Json → Handler}
    (h : ∀ j, req'.Carries form j → (next j).Within P req) :
    (Handler.withBody req' form next).Within P req := by
  unfold Handler.withBody
  split
  · exact within_text _ _
  rename_i hjson
  split
  · exact within_text _ _
  rename_i hshort
  split
  · rename_i j hj; exact h j ⟨by simpa using hjson, Nat.le_of_not_lt hshort, hj⟩
  · exact within_text _ _
  · exact within_text _ _

/-- A quiet handler of a request that is not for reactions. -/
theorem Handler.Quiet.within (hreq : req.isForReactions = false) :
    ∀ {h : Handler}, h.Quiet → h.Within P req
  | .reply resp, _ => by
    intro r hr
    rw [Response.reactions, hreq, if_neg (by simp)] at hr
    cases hr
  | .call a next, hq => by
    refine ⟨?_, fun x _ => (hq.2 x).within hreq⟩
    cases a <;> first | trivial | exact hq.1.elim

/-- A quiet handler without the bodies of its responses. -/
theorem Handler.Quiet.within_head : ∀ {h : Handler}, h.Quiet → h.head.Within P req
  | .reply _, _ => within_reply fun _ hr => nomatch hr
  | .call a next, hq => by
    refine ⟨?_, fun x _ => (hq.2 x).within_head⟩
    cases a <;> first | trivial | exact hq.1.elim

/-! ## Requests -/

theorem listReactions_within (event? : Option String) :
    (Handler.listReactions event?).Within P req := by
  refine ⟨trivial, fun rs hrs => ?_⟩
  cases rs with
  | ok rs => exact within_reactionsJson (hrs rs rfl)
  | error e => exact within_refuse _

theorem showReaction_within (e n : String) : (Handler.showReaction e n).Within P req := by
  refine ⟨trivial, fun r hr => ?_⟩
  obtain ⟨engine, hengine, hr⟩ := hr
  cases r with
  | ok r => exact within_json (hengine r (Store.mem_all_of_get hr))
  | error e => exact within_refuse _

theorem showEvent_within (e : String) : (Handler.show_ fun engine =>
    Handler.reactionsJson (engine.store.matchesFor e)).Within P req := by
  refine ⟨trivial, fun j hj => ?_⟩
  obtain ⟨engine, hengine, rfl⟩ := hj
  exact within_reactionsJson fun r hr => hengine r (Store.mem_all_of_mem_matchesFor hr)

theorem create_within {event : String} {r : Reaction} (hsorted : r.steps.Sorted)
    (hr : P (Reactions.boundTo event r)) : (Reactions.create event r).Within P req := by
  have hnamed : P (Reactions.boundTo event r).normalize := by
    rwa [Reactions.boundTo, Reaction.normalize_idem]
  unfold Reactions.create
  split
  · exact within_refuse _
  refine ⟨⟨Reaction.sorted_normalize hsorted, hnamed⟩, fun x _ => ?_⟩
  cases x with
  | error e => exact within_refuse _
  | ok u =>
    refine ⟨hnamed, fun x _ => ?_⟩
    cases x with
    | error e => exact ⟨trivial, fun _ _ => within_refuse _⟩
    | ok u => exact within_json hr

theorem erase_within (e n : String) : (Reactions.erase e n).Within P req := by
  refine ⟨trivial, fun x _ => ?_⟩
  unfold Reactions.afterErase
  split
  · exact within_bare 204
  · exact within_bare 204
  · exact within_refuse _

theorem delete_within (e n : String) : (Reactions.delete e n).Within P req := by
  refine ⟨trivial, fun x _ => ?_⟩
  unfold Reactions.afterDeactivate
  split
  · exact erase_within e n
  · exact within_refuse _
  · refine ⟨trivial, fun y _ => ?_⟩
    unfold Reactions.afterFetch
    split
    · exact within_refuse _
    · exact erase_within e n
    · exact within_refuse _

theorem isForReactions_eq {route : Route}
    (h : Route.ofSegments? (Target.parse req.target).segments = some route) :
    req.isForReactions = route.isOfReactions := by
  rw [Request.isForReactions, h, Option.any_some]

/-- A handler of a route, if the creation of a reaction that is posted is such. -/
theorem handler?_within {route : Route} {query : String} {h : Handler}
    (hfor : req.isForReactions = route.isOfReactions)
    (hcreate : ∀ raw event j, route = .eventReactions raw → req.method = "POST" →
      decodeSegment raw = some event → req.Carries Reaction.form j →
        (Reactions.create event (Reaction.ofJson j)).Within P req)
    (hh : route.handler? req query = some h) : h.Within P req := by
  unfold Route.handler? at hh
  split at hh <;> cases hh
  · exact Handler.Quiet.within hfor ⟨trivial, fun _ => ⟨trivial, fun _ => trivial⟩⟩
  · exact within_eventFilter _ listReactions_within
  · exact (show_quiet _).within hfor
  · exact (show_quiet _).within hfor
  · exact (show_quiet _).within hfor
  · exact (show_quiet _).within hfor
  · exact within_segment _ _ fun e _ => showEvent_within e
  · rename_i raw hmethod
    exact within_segment _ _ fun event hevent => within_body _ _ fun j hj =>
      hcreate raw event j rfl hmethod hevent hj
  · exact within_segment _ _ fun e _ => within_segment _ _ fun n _ => showReaction_within e n
  · exact within_segment _ _ fun e _ => within_segment _ _ fun n _ => delete_within e n
  · refine within_segment _ _ fun e _ => within_body _ _ fun j _ => ?_
    split <;> exact Handler.Quiet.within hfor ⟨trivial, fun _ => trivial⟩

/-- **What a request lets in and what it is answered** has any property that all
    reactions have and that the reaction has that it posts. -/
theorem answer_within (hposts : ∀ event g, Posts req event g → P (Reactions.boundTo event g)) :
    (answer req).Within P req := by
  unfold answer
  dsimp only
  split
  · exact within_bare 404
  rename_i route hroute
  split
  · exact within_bare 405
  rename_i h hh
  by_cases hhead : req.method = "HEAD"
  · simp only [hhead, BEq.rfl, if_true] at hh ⊢
    exact (handler?_get_quiet rfl hh).within_head
  simp only [beq_iff_eq, hhead, if_false] at hh ⊢
  refine handler?_within (isForReactions_eq hroute) ?_ hh
  intro raw event j hraw hmethod hevent hj
  have hreq : Posts req event (Reaction.ofJson j) :=
    ⟨hmethod, ⟨raw, hraw ▸ hroute, hevent⟩, j, hj, rfl⟩
  exact create_within hreq.sorted (hposts event _ hreq)

/-! ## Histories -/

/-- What may happen to a service and the requests to it. -/
inductive Happening where
  /-- a request comes in -/
  | ask (req : Request)
  /-- a request that came in goes on -/
  | move (m : Crowd.Move)
  /-- the program that embeds the engine adds a reaction, takes one away, or adds
      many, passing over what is refused -/
  | add (r : Reaction)
  | remove (event name : String)
  | seed (rs : List Reaction)
  /-- anyone writes rows, which may hold anything -/
  | write (storage : Storage)
  /-- the service starts anew on the same storage; requests under way are lost -/
  | restart

namespace Crowd

/-- What a happening leads to; `none` if it cannot happen now. -/
def happen? (c : Crowd) : Happening → Option Crowd
  | .ask req => some { c with waiting := c.waiting ++ [req] }
  | .move m => c.move? m
  | .add r => some { c with service := (c.service.change (c.service.engine.add r)).2 }
  | .remove e n => some { c with service := (c.service.change (c.service.engine.remove e n)).2 }
  | .seed rs =>
    some { c with service := { c.service with engine := (c.service.engine.seed rs).2 } }
  | .write storage => some { c with service := { c.service with storage } }
  | .restart => c.service.restart.toOption.map fun service => { c with service, busy := [] }

/-- What happenings in a row lead to. -/
def through? (c : Crowd) : List Happening → Option Crowd
  | [] => some c
  | h :: hs => (c.happen? h).bind (through? · hs)

/-- A reaction is active, or in a response that was given. -/
def Shows (c : Crowd) (r : Reaction) : Prop :=
  r ∈ c.service.engine.store.all ∨ ∃ a ∈ c.answered, r ∈ a.2.reactions a.1

end Crowd

/-- A reaction comes in, with the names that its steps have then. -/
inductive Happening.Brings : Happening → Reaction → Prop
  | post {req : Request} {event : String} {r : Reaction} :
      Posts req event r → Brings (.ask req) { r with event }
  | add (r : Reaction) : Brings (.add r) r
  | seed {rs : List Reaction} {r : Reaction} : r ∈ rs → Brings (.seed rs) r
  | row {storage : Storage} {row : Row} {r : Reaction} :
      row ∈ storage.rows → row.written = .ok r → Brings (.write storage) r

/-- All reactions, those that requests are about to let in or to give, and those
    that were given, have some property. -/
structure Crowd.Within (P : Reaction → Prop) (c : Crowd) : Prop where
  service : c.service.Within P
  waiting : ∀ req ∈ c.waiting, (answer req).Within P req
  busy : ∀ b ∈ c.busy, b.2.Within P b.1
  answered : ∀ a ∈ c.answered, ∀ r ∈ a.2.reactions a.1, P r

namespace Crowd.Within

variable {c d : Crowd}

theorem start (actions : Registry ActionModule) (sources : Registry EventSource)
    (evaluate : Evaluator) : (Crowd.start (.new actions sources evaluate) []).Within P :=
  ⟨⟨nofun, nofun⟩, nofun, nofun, nofun⟩

/-- **Requests that go on** let in and give nothing else. -/
theorem move (hc : c.Within P) {m : Crowd.Move} (hm : c.move? m = some d) : d.Within P := by
  cases m with
  | begin i =>
    obtain ⟨req, hreq, -⟩ := Option.map_eq_some_iff.1 hm
    rw [move?_begin hreq] at hm
    cases hm
    refine ⟨hc.service, fun r hr => hc.waiting r (List.mem_of_mem_eraseIdx hr), fun b hb => ?_,
      hc.answered⟩
    rcases List.mem_append.1 hb with hb | hb
    · exact hc.busy b hb
    · rw [List.mem_singleton.1 hb]
      exact hc.waiting req (List.mem_of_getElem? hreq)
  | call i =>
    obtain ⟨⟨req, h⟩, hb, -⟩ := Option.map_eq_some_iff.1 hm
    rw [move?_call hb] at hm
    cases hm
    obtain ⟨hservice, hhandler⟩ := (hc.busy _ (List.mem_of_getElem? hb)).step hc.service
    refine ⟨hservice, hc.waiting, fun b hb => ?_, hc.answered⟩
    rcases List.mem_or_eq_of_mem_set hb with hb | rfl
    · exact hc.busy b hb
    · exact hhandler
  | reply i =>
    obtain ⟨req, resp, hb⟩ : ∃ req resp, c.busy[i]? = some (req, .reply resp) := by
      simp only [move?] at hm
      split at hm
      · rename_i req resp hb; exact ⟨req, resp, hb⟩
      · cases hm
    rw [move?_reply hb] at hm
    cases hm
    have hresp := hc.busy _ (List.mem_of_getElem? hb)
    refine ⟨hc.service, hc.waiting, fun b hb => hc.busy b (List.mem_of_mem_eraseIdx hb),
      fun a ha => ?_⟩
    rcases List.mem_append.1 ha with ha | ha
    · exact hc.answered a ha
    · rw [List.mem_singleton.1 ha]; exact hresp
  | pass now =>
    cases hm
    exact ⟨⟨hc.service.active, hc.service.persisted⟩, hc.waiting, hc.busy, hc.answered⟩

/-- **What happens lets in** only what it brings. -/
theorem happen (hc : c.Within P) {h : Happening} (hbrings : ∀ g, h.Brings g → P g.normalize)
    (hd : c.happen? h = some d) : d.Within P := by
  cases h with
  | ask req =>
    cases hd
    refine ⟨hc.service, fun r hr => ?_, hc.busy, hc.answered⟩
    rcases List.mem_append.1 hr with hr | hr
    · exact hc.waiting r hr
    · rw [List.mem_singleton.1 hr]
      exact answer_within fun event g hg => hbrings _ (.post hg)
  | move m => exact hc.move hd
  | add r =>
    cases hd
    exact ⟨hc.service.change (hbrings r (.add r)), hc.waiting, hc.busy, hc.answered⟩
  | remove e n => cases hd; exact ⟨hc.service.remove e n, hc.waiting, hc.busy, hc.answered⟩
  | seed rs =>
    cases hd
    have hseeded := Service.Within.seed hc.service.active fun g hg => hbrings g (.seed hg)
    exact ⟨⟨hseeded, hc.service.persisted⟩, hc.waiting, hc.busy, hc.answered⟩
  | write storage =>
    cases hd
    refine ⟨⟨hc.service.active, fun row hrow r hr => ?_⟩, hc.waiting, hc.busy, hc.answered⟩
    rw [Row.reaction_eq] at hr
    obtain ⟨g, hg, rfl⟩ := Except.map_eq_ok.1 hr
    exact hbrings g (.row hrow hg)
  | restart =>
    obtain ⟨s, hs, rfl⟩ := Option.map_eq_some_iff.1 hd
    cases hr : c.service.restart with
    | error e => rw [hr] at hs; cases hs
    | ok s' =>
      rw [hr] at hs
      cases hs
      obtain ⟨rs, hrs, hs⟩ := Except.bind_eq_ok.1 hr
      cases hs
      refine ⟨⟨Service.Within.seed nofun fun r hr => ?_, hc.service.persisted⟩, hc.waiting, nofun,
        hc.answered⟩
      obtain ⟨row, hrow, hread⟩ := Storage.exists_row_of_all hrs hr
      rw [(Row.reaction_ok hread).2]
      exact hc.service.persisted row hrow r hread

theorem through : ∀ {hs : List Happening} {c : Crowd}, c.Within P →
    (∀ h ∈ hs, ∀ g, h.Brings g → P g.normalize) → c.through? hs = some d → d.Within P
  | [], _, hc, _, hd => by cases hd; exact hc
  | h :: hs, c, hc, hbrings, hd => by
    obtain ⟨c', hc', hd⟩ := Option.bind_eq_some_iff.1 hd
    refine through (hc.happen (hbrings h List.mem_cons_self) hc') (fun h' hh' => ?_) hd
    exact hbrings h' (List.mem_cons_of_mem _ hh')

theorem shows (hc : c.Within P) {r : Reaction} (hr : c.Shows r) : P r := by
  rcases hr with hr | ⟨a, ha, hr⟩
  · exact hc.service.active r hr
  · exact hc.answered a ha r hr

end Crowd.Within

/-- **The steps of a reaction are named by their keys if and only if it came in
    so.**  Whatever happens, in any order: if no step comes in with a name other
    than its key, all steps of active reactions and of those in responses are
    named by their keys; and where one is not, it came in with that name. -/
theorem shown_keyed_iff (actions : Registry ActionModule) (sources : Registry EventSource)
    (evaluate : Evaluator) {hs : List Happening} {c : Crowd}
    (hc : (Crowd.start (.new actions sources evaluate) []).through? hs = some c) :
    ((∀ h ∈ hs, ∀ g, h.Brings g → g.Keyable) → ∀ r, c.Shows r → r.Keyed) ∧
      ∀ r, c.Shows r →
        ∃ h ∈ hs, ∃ g, h.Brings g ∧ g.normalize = r ∧ (r.Keyed ↔ g.Keyable) := by
  have hstems : c.Within fun r => ∃ h ∈ hs, ∃ g, h.Brings g ∧ g.normalize = r :=
    (Crowd.Within.start actions sources evaluate).through
      (fun h hh g hg => ⟨h, hh, g, hg, rfl⟩) hc
  constructor
  · intro hkeyable r hr
    obtain ⟨h, hh, g, hg, rfl⟩ := hstems.shows hr
    exact Reaction.keyed_normalize_iff.2 (hkeyable h hh g hg)
  · intro r hr
    obtain ⟨h, hh, g, hg, rfl⟩ := hstems.shows hr
    exact ⟨h, hh, g, hg, rfl, Reaction.keyed_normalize_iff⟩

/-- A request to hang up a bell whose step `ring` has a name. -/
def ringing (name : String) : Request :=
  let body := "\x7b\"name\":\"bell\",\"steps\":\x7b\"ring\":\x7b\"name\":\"" ++ name ++
    "\",\"module\":\"dummy\",\"action\":\"echo\"\x7d\x7d\x7d"
  ⟨"POST", "/v1/events/door/reactions", some "application/json", body.toUTF8⟩

/-- The request is answered. -/
def hangingUp (name : String) : List Happening :=
  [.ask (ringing name), .move (.begin 0), .move (.call 0), .move (.call 0), .move (.reply 0)]

/-- A step that comes in without a name. -/
theorem shown_keyed_bell :
    ∃ c, (Crowd.start (.new .actions .sources fun _ _ _ => .ok .stop) []).through?
        (hangingUp "") = some c ∧
      c.Shows ⟨"bell", "door", "", [("ring", ⟨"ring", "dummy", "echo", ""⟩)]⟩ ∧
      ∀ r, c.Shows r → r.Keyed := by
  have hshown : ((Crowd.start (.new .actions .sources fun _ _ _ => .ok .stop) []).through?
      (hangingUp "")).map (·.service.engine.store.all) =
        some [⟨"bell", "door", "", [("ring", ⟨"ring", "dummy", "echo", ""⟩)]⟩] := by decide +kernel
  obtain ⟨c, hc, hall⟩ := Option.map_eq_some_iff.1 hshown
  refine ⟨c, hc, Or.inl (hall ▸ List.mem_cons_self), (shown_keyed_iff _ _ _ hc).1 ?_⟩
  intro h hh g hg
  rcases hg with @⟨req, event, r, hposts⟩ | _ | _ | _
  · have hreq : req = ringing "" := by simpa [hangingUp] using hh
    obtain ⟨j, hj, rfl⟩ := hposts.body
    have hdecoded : (Json.decodeBytes Reaction.form (ringing "").body).toOption.map
        Reaction.ofJson = some ⟨"bell", "", "", [("ring", ⟨"", "dummy", "echo", ""⟩)]⟩ := by
      decide +kernel
    rw [← hreq, hj.decodes] at hdecoded
    have hsteps : (Reaction.ofJson j).steps = [("ring", ⟨"", "dummy", "echo", ""⟩)] :=
      congrArg Reaction.steps (Option.some.inj hdecoded)
    intro f hf
    rw [show f = ("ring", _) from List.mem_singleton.1 (hsteps ▸ hf)]
    exact Or.inl rfl
  all_goals simp [hangingUp] at hh

/-- A step that comes in as `call` under the key `ring` stays so. -/
theorem shown_as_call :
    ∃ c, (Crowd.start (.new .actions .sources fun _ _ _ => .ok .stop) []).through?
        (hangingUp "call") = some c ∧
      (∃ r ∈ c.service.engine.store.all, ¬ r.Keyed) ∧
      ∃ a ∈ c.answered, ∃ r ∈ a.2.reactions a.1, ¬ r.Keyed := by
  let bell : Reaction := ⟨"bell", "door", "", [("ring", ⟨"call", "dummy", "echo", ""⟩)]⟩
  have hshown : ((Crowd.start (.new .actions .sources fun _ _ _ => .ok .stop) []).through?
      (hangingUp "call")).map (fun c => (c.service.engine.store.all,
        c.answered.map fun a => a.2.reactions a.1)) = some ([bell], [[bell]]) := by decide +kernel
  have hbell : ¬ bell.Keyed := fun h => by simpa using h _ List.mem_cons_self
  obtain ⟨c, hc, hall⟩ := Option.map_eq_some_iff.1 hshown
  obtain ⟨hactive, hanswered⟩ := Prod.mk.inj hall
  obtain ⟨a, ha, hreactions⟩ := List.mem_map.1 (hanswered ▸ List.mem_cons_self)
  exact ⟨c, hc, ⟨bell, hactive ▸ List.mem_cons_self, hbell⟩, a, ha, bell,
    hreactions ▸ List.mem_cons_self, hbell⟩

end Http

end Reactor
