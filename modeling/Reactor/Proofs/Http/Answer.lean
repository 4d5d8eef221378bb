/-
  What requests set off.

  * `Handler.Quiet` says that a handler changes neither the active reactions nor
    the storage, however its calls end;
  * `Proper` reactions have their steps sorted and named;
  * `Posts` and `Deletes` say that a request is to create or to delete a
    reaction;
  * `answer_cases`: the handler of a request is quiet, creates a proper
    reaction, or deletes one.
-/
import Reactor.Http.Router
import Reactor.Proofs.Reaction

namespace Reactor.Http

/-- A reaction whose steps are sorted and named. -/
structure Proper (r : Reaction) : Prop where
  sorted : r.steps.Sorted
  named : r.normalize = r

/-- A call that changes neither the active reactions nor the storage, nor looks
    one of them up. -/
def Access.Quiet {α : Type} : Access α → Prop
  | .list _ | .launch _ | .view _ | .uptime => True
  | _ => False

/-- A handler that makes only quiet calls. -/
def Handler.Quiet : Handler → Prop
  | .reply _ => True
  | .call a next => a.Quiet ∧ ∀ x, (next x).Quiet

/-! ## Quiet calls -/

theorem Access.Quiet.run {α : Type} {a : Access α} (h : a.Quiet) (s : Service) :
    (a.run s).2.engine.store = s.engine.store ∧ (a.run s).2.storage = s.storage := by
  cases a with
  | create | delete | fetch | activate | deactivate => exact h.elim
  | list event? => cases event? <;> exact ⟨rfl, rfl⟩
  | launch e => exact ⟨rfl, rfl⟩
  | view look => exact ⟨rfl, rfl⟩
  | uptime => exact ⟨rfl, rfl⟩

theorem Handler.Quiet.step {h : Handler} (hq : h.Quiet) (s : Service) :
    (h.step s).1.Quiet ∧ (h.step s).2.engine.store = s.engine.store ∧
      (h.step s).2.storage = s.storage := by
  cases h with
  | reply r => exact ⟨hq, rfl, rfl⟩
  | call a next => exact ⟨hq.2 _, hq.1.run s⟩

theorem Handler.Quiet.run : ∀ {h : Handler}, h.Quiet → ∀ s : Service,
    (h.run s).2.engine.store = s.engine.store ∧ (h.run s).2.storage = s.storage
  | .reply _, _, _ => ⟨rfl, rfl⟩
  | .call a next, hq, s => by
    obtain ⟨hstore, hstorage⟩ := hq.1.run s
    obtain ⟨hstore', hstorage'⟩ := (hq.2 (a.run s).1).run (a.run s).2
    exact ⟨hstore'.trans hstore, hstorage'.trans hstorage⟩

theorem Handler.Quiet.head : ∀ {h : Handler}, h.Quiet → h.head.Quiet
  | .reply _, _ => trivial
  | .call _ _, hq => ⟨hq.1, fun x => (hq.2 x).head⟩

/-- A deletion that finds nothing active looks into the storage. -/
theorem afterDeactivate_error {e n : String} {f : StoreError}
    (hf : f = .noReactionsForEvent e ∨ f = .reactionNotFound e n) :
    Reactions.afterDeactivate e n (.error f) = .call (.fetch e n) (Reactions.afterFetch e n f) := by
  rcases hf with rfl | rfl <;> rfl

/-! ## What requests carry -/

theorem gives_of_decodeBytes {form : Json.Decoder Json} {bytes : ByteArray} {j : Json}
    (h : Json.decodeBytes form bytes = .ok j) : Json.Decoder.Gives form j := by
  have hread : Json.decode form (Json.validBeginning bytes) = .ok j := by
    unfold Json.decodeBytes at h
    dsimp only at h
    split at h
    · exact h
    · split at h <;> cases h
  obtain ⟨⟨j', r⟩, hj, h⟩ := Except.bind_eq_ok.1 hread
  dsimp only at h
  split at h
  · cases h; exact ⟨_, _, _, hj⟩
  · cases h

theorem withSegment_cases (name raw : String) (next : String → Handler) :
    (Handler.withSegment name raw next).Quiet ∨
      ∃ s, decodeSegment raw = some s ∧ Handler.withSegment name raw next = next s := by
  unfold Handler.withSegment
  split
  · rename_i s hs
    exact Or.inr ⟨s, hs, rfl⟩
  · exact Or.inl trivial

/-- A body is JSON of some form, and gives a value. -/
structure Request.Carries (req : Request) (form : Json.Decoder Json) (j : Json) : Prop where
  isJson : req.contentType?.any MediaType.isJson
  short : req.body.size ≤ maxBody
  decodes : Json.decodeBytes form req.body = .ok j

theorem withBody_cases (req : Request) (form : Json.Decoder Json) (next : Json → Handler) :
    (Handler.withBody req form next).Quiet ∨
      ∃ j, req.Carries form j ∧ Handler.withBody req form next = next j := by
  unfold Handler.withBody
  split
  · exact Or.inl trivial
  rename_i hjson
  split
  · exact Or.inl trivial
  rename_i hshort
  split
  · rename_i j hj
    exact Or.inr ⟨j, ⟨by simpa using hjson, Nat.le_of_not_lt hshort, hj⟩, rfl⟩
  · exact Or.inl trivial
  · exact Or.inl trivial

theorem withEventFilter_quiet (query : String) {next : Option String → Handler}
    (hn : ∀ e, (next e).Quiet) : (Handler.withEventFilter query next).Quiet := by
  unfold Handler.withEventFilter
  split
  · exact hn _
  · exact hn _
  · trivial

/-! ## Routes -/

theorem Proper.boundTo {r : Reaction} (hr : r.steps.Sorted) (event : String) :
    Proper (Reactions.boundTo event r) :=
  ⟨Reaction.sorted_normalize hr, Reaction.normalize_idem _⟩

/-- The handlers of requests. -/
def Handled (h : Handler) : Prop :=
  h.Quiet ∨ (∃ r, Proper r ∧ h = .call (.create r) (Reactions.afterCreate r)) ∨
    ∃ e n, h = Reactions.delete e n

theorem handled_create (event : String) {r : Reaction} (hr : r.steps.Sorted) :
    Handled (Reactions.create event r) := by
  unfold Reactions.create
  split
  · exact Or.inl trivial
  · exact Or.inr (Or.inl ⟨_, .boundTo hr event, rfl⟩)

theorem show_quiet (look : Engine → Json) : (Handler.show_ look).Quiet :=
  ⟨trivial, fun _ => trivial⟩

theorem listReactions_quiet (event? : Option String) : (Handler.listReactions event?).Quiet := by
  refine ⟨trivial, fun rs => ?_⟩
  cases rs <;> trivial

theorem showReaction_quiet (e n : String) : (Handler.showReaction e n).Quiet := by
  refine ⟨trivial, fun r => ?_⟩
  cases r <;> trivial

/-- `GET` is quiet. -/
theorem handler?_get_quiet {route : Route} {req : Request} {query : String} {h : Handler}
    (hreq : req.method = "GET") (hh : route.handler? req query = some h) : h.Quiet := by
  unfold Route.handler? at hh
  rw [hreq] at hh
  cases route with
  | health => cases hh; exact ⟨trivial, fun _ => ⟨trivial, fun _ => trivial⟩⟩
  | reactions => cases hh; exact withEventFilter_quiet query listReactions_quiet
  | actions => cases hh; exact show_quiet _
  | events => cases hh; exact show_quiet _
  | modules => cases hh; exact show_quiet _
  | stats => cases hh; exact show_quiet _
  | eventReactions e =>
    cases hh
    rcases withSegment_cases "event" e _ with hq | ⟨e, -, he⟩
    · exact hq
    · exact he ▸ show_quiet _
  | reaction e n =>
    cases hh
    rcases withSegment_cases "event" e _ with hq | ⟨e, -, he⟩
    · exact hq
    · rw [he]
      rcases withSegment_cases "reaction" n _ with hq | ⟨n, -, hn⟩
      · exact hq
      · exact hn ▸ showReaction_quiet e n
  | dispatch e => simp at hh

/-- A request to create a reaction to an event. -/
structure Posts (req : Request) (event : String) (r : Reaction) : Prop where
  method : req.method = "POST"
  route : ∃ raw, Route.ofSegments? (Target.parse req.target).segments = some (.eventReactions raw) ∧
    decodeSegment raw = some event
  body : ∃ j, req.Carries Reaction.form j ∧ Reaction.ofJson j = r

/-- A request to delete the reaction under a key. -/
structure Deletes (req : Request) (event name : String) : Prop where
  method : req.method = "DELETE"
  route : ∃ rawEvent rawName,
    Route.ofSegments? (Target.parse req.target).segments = some (.reaction rawEvent rawName) ∧
      decodeSegment rawEvent = some event ∧ decodeSegment rawName = some name

theorem Posts.sorted {req : Request} {event : String} {r : Reaction} (h : Posts req event r) :
    r.steps.Sorted := by
  obtain ⟨j, hj, rfl⟩ := h.body
  exact Reaction.sorted_of_gives (gives_of_decodeBytes hj.decodes)

/-- **What a request asks for**: nothing that changes reactions, the creation of
    one, or the deletion of one. -/
theorem request_cases (req : Request) :
    (answer req).Quiet ∨ (∃ event r, Posts req event r ∧ answer req = Reactions.create event r) ∨
      ∃ event name, Deletes req event name ∧ answer req = Reactions.delete event name := by
  unfold answer
  dsimp only
  split
  · exact Or.inl trivial
  rename_i route hroute
  split
  · exact Or.inl trivial
  rename_i h hh
  by_cases hhead : req.method = "HEAD"
  · simp only [hhead, BEq.rfl, if_true] at hh ⊢
    exact Or.inl (handler?_get_quiet rfl hh).head
  simp only [beq_iff_eq, hhead, if_false] at hh ⊢
  by_cases hget : req.method = "GET"
  · exact Or.inl (handler?_get_quiet hget hh)
  unfold Route.handler? at hh
  split at hh <;> first | contradiction | skip
  · rename_i e hmethod
    cases hh
    rcases withSegment_cases "event" e _ with hq | ⟨event, hevent, he⟩
    · exact Or.inl hq
    · rw [he]
      rcases withBody_cases req Reaction.form _ with hq | ⟨j, hj, hb⟩
      · exact Or.inl hq
      · exact Or.inr (Or.inl ⟨event, _, ⟨hmethod, ⟨e, hroute, hevent⟩, j, hj, rfl⟩, hb⟩)
  · rename_i e n hmethod
    cases hh
    rcases withSegment_cases "event" e _ with hq | ⟨event, hevent, he⟩
    · exact Or.inl hq
    · rw [he]
      rcases withSegment_cases "reaction" n _ with hq | ⟨name, hname, hn⟩
      · exact Or.inl hq
      · exact Or.inr (Or.inr ⟨event, name, ⟨hmethod, e, n, hroute, hevent, hname⟩, hn⟩)
  · rename_i e _
    cases hh
    rcases withSegment_cases "event" e _ with hq | ⟨event, -, he⟩
    · exact Or.inl hq
    · rw [he]
      refine Or.inl ?_
      rcases withBody_cases req Json.Decoder.object _ with hq | ⟨j, -, hb⟩
      · exact hq
      · rw [hb]
        split <;> exact ⟨trivial, fun _ => trivial⟩

/-- **What a request sets off**: nothing that changes reactions, the creation of
    a proper one, or the deletion of one. -/
theorem answer_cases (req : Request) : Handled (answer req) := by
  rcases request_cases req with hq | ⟨event, r, hposts, ha⟩ | ⟨e, n, -, ha⟩
  · exact Or.inl hq
  · exact ha ▸ handled_create event hposts.sorted
  · exact Or.inr (Or.inr ⟨e, n, ha⟩)

end Reactor.Http
