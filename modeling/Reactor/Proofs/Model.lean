/-
  The JSON of the records that are stored and sent.

  * `layout` of a step, a reaction, an argument, a capability, the counts and an event:
    their fields with what these hold and the texts of that;
  * `decodes_layouts`: such a record is read from its own text and from each that lays
    it out, and a text that gives a field twice, or not at all, is refused.
-/
import Reactor.Capability
import Reactor.Engine.Metrics
import Reactor.Event
import Reactor.Proofs.Json.Slots
import Reactor.Proofs.Reaction

namespace Reactor

open Json Json.Decoder

/-! ## Steps -/

namespace ActionStep

theorem decode_eq (text : String) : decode text = (Json.decode layout.form text).map ofJson := rfl

theorem faithful_step (s : ActionStep) : Faithful layout decode s.toJson s :=
  faithful decode_eq (ofJson_toJson s) strict_layout.distinct (s.sound_layout 126)

end ActionStep

/-! ## Reactions -/

namespace Reaction

/-- The fields of a reaction. -/
def layout : Layout Reaction where
  title := "struct Reaction"
  slots := [.plain (required "name" text) fun r => .str r.name,
    .plain (optional "event" (.str "") text) fun r => .str r.event,
    .plain (optional "script" (.str "") text) fun r => .str r.script,
    .table "steps" ["actions"] ActionStep.layout steps]

theorem strict_layout : layout.Strict where
  distinct := by unfold Layout.Distinct; decide
  slots := by
    simp only [layout, List.forall_mem_cons]
    exact ⟨Slot.strict_text rfl, Slot.strict_text rfl, Slot.strict_text rfl,
      Slot.strict_table ActionStep.strict_layout, List.forall_mem_nil _⟩

theorem sound_layout {r : Reaction} (hs : r.steps.Sorted) (depth : Nat) :
    layout.Sound r (depth + 2) := by
  simp only [Layout.Sound, layout, List.forall_mem_cons]
  exact ⟨Slot.sound_text rfl name, Slot.sound_text rfl event, Slot.sound_text rfl script,
    Slot.sound_table hs ActionStep.strict_layout.distinct fun f _ => f.2.sound_layout depth,
    List.forall_mem_nil _⟩

theorem ofJson_toJson (r : Reaction) : ofJson r.toJson = r :=
  congrArg (Reaction.mk r.name r.event r.script) (stepsOfFields_toJson r.steps)

theorem decode_eq (text : String) : decode text = (Json.decode layout.form text).map ofJson := rfl

theorem faithful_reaction {r : Reaction} (hs : r.steps.Sorted) : Faithful layout decode r.toJson r :=
  faithful decode_eq (ofJson_toJson r) strict_layout.distinct (sound_layout hs 124)

end Reaction

/-! ## Capabilities -/

namespace Argument

/-- The fields of an argument. -/
def layout : Layout Argument where
  title := "struct ArgumentDescriptor"
  slots := [.plain (required "type" text) fun a => .str a.type,
    .plain (required "name" text) fun a => .str a.name]

theorem strict_layout : layout.Strict where
  distinct := by unfold Layout.Distinct; decide
  slots := by
    simp only [layout, List.forall_mem_cons]
    exact ⟨Slot.strict_text rfl, Slot.strict_text rfl, List.forall_mem_nil _⟩

theorem sound_layout (a : Argument) (depth : Nat) : layout.Sound a depth := by
  simp only [Layout.Sound, layout, List.forall_mem_cons]
  exact ⟨Slot.sound_text rfl type, Slot.sound_text rfl name, List.forall_mem_nil _⟩

theorem ofJson_toJson (a : Argument) : ofJson a.toJson = a := rfl

end Argument

namespace Capability

/-- The fields of a capability. -/
def layout : Layout Capability where
  title := "struct Capability"
  slots := [.plain (required "name" text) fun c => .str c.name,
    .list "data_in" Argument.layout input, .list "data_out" Argument.layout output]

theorem strict_layout : layout.Strict where
  distinct := by unfold Layout.Distinct; decide
  slots := by
    simp only [layout, List.forall_mem_cons]
    exact ⟨Slot.strict_text rfl, Slot.strict_list Argument.strict_layout,
      Slot.strict_list Argument.strict_layout, List.forall_mem_nil _⟩

theorem sound_layout (c : Capability) (depth : Nat) : layout.Sound c (depth + 2) := by
  have hlist (get : Capability → List Argument) (name : String) :
      (Slot.list name Argument.layout get).Sound c (depth + 2) :=
    Slot.sound_list Argument.strict_layout.distinct fun a _ => a.sound_layout depth
  simp only [Layout.Sound, layout, List.forall_mem_cons]
  exact ⟨Slot.sound_text rfl name, hlist input _, hlist output _, List.forall_mem_nil _⟩

theorem ofJson_toJson (c : Capability) : ofJson c.toJson = c := by
  have hitems (l : List Argument) : (l.map Argument.toJson).map Argument.ofJson = l := by
    rw [List.map_map]
    exact (List.map_congr_left fun a _ => a.ofJson_toJson).trans (List.map_id l)
  show Capability.mk c.name ((c.input.map Argument.toJson).map Argument.ofJson)
    ((c.output.map Argument.toJson).map Argument.ofJson) = c
  rw [hitems, hitems]

theorem decode_eq (text : String) : decode text = (Json.decode layout.form text).map ofJson := rfl

theorem faithful_capability (c : Capability) : Faithful layout decode c.toJson c :=
  faithful decode_eq (ofJson_toJson c) strict_layout.distinct (c.sound_layout 124)

end Capability

/-! ## Counts -/

namespace Metrics

/-- The fields of the counts. -/
def layout : Layout Metrics where
  title := "struct MetricsSnapshot"
  slots := [.plain (required "events_received" natural) fun m => .nat m.received.toNat,
    .plain (required "events_matched" natural) fun m => .nat m.matched.toNat,
    .plain (required "events_unmatched" natural) fun m => .nat m.unmatched.toNat,
    .plain (required "pipelines_done" natural) fun m => .nat m.done.toNat,
    .plain (required "pipelines_not_launched" natural) fun m => .nat m.notLaunched.toNat,
    .plain (required "pipelines_error" natural) fun m => .nat m.failed.toNat]

theorem strict_layout : layout.Strict where
  distinct := by unfold Layout.Distinct; decide
  slots := by
    simp only [layout, List.forall_mem_cons]
    exact ⟨Slot.strict_natural rfl, Slot.strict_natural rfl, Slot.strict_natural rfl,
      Slot.strict_natural rfl, Slot.strict_natural rfl, Slot.strict_natural rfl,
      List.forall_mem_nil _⟩

theorem sound_layout (m : Metrics) (depth : Nat) : layout.Sound m depth := by
  simp only [Layout.Sound, layout, List.forall_mem_cons]
  exact ⟨Slot.sound_natural rfl received, Slot.sound_natural rfl matched,
    Slot.sound_natural rfl unmatched, Slot.sound_natural rfl done,
    Slot.sound_natural rfl notLaunched, Slot.sound_natural rfl failed, List.forall_mem_nil _⟩

theorem ofJson_toJson (m : Metrics) : ofJson m.toJson = m := by
  show Metrics.mk (.ofNat m.received.toNat) (.ofNat m.matched.toNat) (.ofNat m.unmatched.toNat)
    (.ofNat m.done.toNat) (.ofNat m.notLaunched.toNat) (.ofNat m.failed.toNat) = m
  simp only [UInt64.ofNat_toNat]

theorem decode_eq (text : String) : decode text = (Json.decode layout.form text).map ofJson := rfl

theorem faithful_metrics (m : Metrics) : Faithful layout decode m.toJson m :=
  faithful decode_eq (ofJson_toJson m) strict_layout.distinct (m.sound_layout 126)

end Metrics

/-! ## Events -/

namespace Event

/-- The fields of an event. -/
def layout : Layout Event where
  title := "struct Event"
  slots := [.plain (required "name" text) fun e => .str e.name,
    .plain (optional "data" (.obj []) object) fun e => .obj e.data]

theorem strict_layout : layout.Strict where
  distinct := by unfold Layout.Distinct; decide
  slots := by
    simp only [layout, List.forall_mem_cons]
    exact ⟨Slot.strict_text rfl, Slot.strict_object rfl, List.forall_mem_nil _⟩

theorem sound_layout {e : Event} (hproper : (Json.obj e.data).Proper)
    (hfree : FloatFree (.obj e.data)) {depth : Nat} (hdepth : (Json.obj e.data).depth ≤ depth) :
    layout.Sound e depth := by
  simp only [Layout.Sound, layout, List.forall_mem_cons]
  exact ⟨Slot.sound_text rfl name, Slot.sound_object rfl hproper hfree hdepth, List.forall_mem_nil _⟩

theorem ofJson_toJson (e : Event) : ofJson e.toJson = e := rfl

theorem decode_eq (text : String) : decode text = (Json.decode layout.form text).map ofJson := rfl

theorem faithful_event {e : Event} (hproper : (Json.obj e.data).Proper)
    (hfree : FloatFree (.obj e.data)) (hdepth : e.toJson.depth ≤ Reader.maxDepth) :
    Faithful layout decode e.toJson e :=
  have hdata : (Json.obj e.data).depth < e.toJson.depth := depth_lt_of_get? (k := "data") rfl
  faithful decode_eq (ofJson_toJson e) strict_layout.distinct
    (sound_layout hproper hfree (Nat.le_of_lt_succ (Nat.lt_of_lt_of_le hdata hdepth)))

end Event

/-! ## All of them -/

/-- **The records of the model are decoded from their own texts, which give all fields in
    order, and from all that lay them out**: with their fields in any order, under any of
    their names, with any blanks and unknown fields between, and without those that hold
    their defaults.  A text that gives a field twice, or not at all though it has no
    default, is refused. -/
theorem decodes_layouts :
    (∀ r : Reaction, r.steps.Sorted → Faithful Reaction.layout Reaction.decode r.toJson r) ∧
    (∀ s : ActionStep, Faithful ActionStep.layout ActionStep.decode s.toJson s) ∧
    (∀ c : Capability, Faithful Capability.layout Capability.decode c.toJson c) ∧
    (∀ m : Metrics, Faithful Metrics.layout Metrics.decode m.toJson m) ∧
    (∀ e : Event, (Json.obj e.data).Proper → FloatFree (.obj e.data) →
      e.toJson.depth ≤ Reader.maxDepth → Faithful Event.layout Event.decode e.toJson e) ∧
    RefusesFaulty Reaction.layout Reaction.decode ∧
    RefusesFaulty ActionStep.layout ActionStep.decode ∧
    RefusesFaulty Capability.layout Capability.decode ∧
    RefusesFaulty Metrics.layout Metrics.decode ∧ RefusesFaulty Event.layout Event.decode :=
  ⟨fun _ => Reaction.faithful_reaction, ActionStep.faithful_step, Capability.faithful_capability,
    Metrics.faithful_metrics, fun _ => Event.faithful_event,
    refusesFaulty Reaction.decode_eq Reaction.strict_layout,
    refusesFaulty ActionStep.decode_eq ActionStep.strict_layout,
    refusesFaulty Capability.decode_eq Capability.strict_layout,
    refusesFaulty Metrics.decode_eq Metrics.strict_layout,
    refusesFaulty Event.decode_eq Event.strict_layout⟩

/-- A reaction with a step, an event with a number, and an object without fields. -/
theorem decodes_layouts_records :
    Reaction.decode (Reaction.toJson ⟨"r", "e", "", [("a", ⟨"", "m", "act", ""⟩)]⟩).compress =
      .ok ⟨"r", "e", "", [("a", ⟨"", "m", "act", ""⟩)]⟩ ∧
    Event.decode (Event.toJson ⟨"e", [("n", .int 1)]⟩).compress = .ok ⟨"e", [("n", .int 1)]⟩ ∧
    ∃ e, ActionStep.decode "\x7b\x7d" = .error e := by
  have hreaction : Fields.Sorted [("a", (⟨"", "m", "act", ""⟩ : ActionStep))] :=
    List.pairwise_singleton _ _
  have hproper : (Json.obj [("n", .int 1)]).Proper := by
    refine .obj (List.pairwise_singleton _ _) ?_
    rintro k j (_ | ⟨_, ⟨⟩⟩)
    exact .int (by decide) (by decide)
  have hfree : FloatFree (.obj [("n", .int 1)]) := by
    refine .obj ?_
    rintro k j (_ | ⟨_, ⟨⟩⟩)
    exact .int 1
  have hfaulty : ActionStep.layout.Faulty (.object []) :=
    .missing (.tail _ (.head _)) rfl (List.forall_mem_nil _)
  refine ⟨(decodes_layouts.1 _ hreaction).encoded,
    (decodes_layouts.2.2.2.2.1 _ hproper hfree (by decide)).encoded,
    decodes_layouts.2.2.2.2.2.2.1 (.object (List.forall_mem_nil _) (List.forall_mem_nil _))
      hfaulty ?_⟩
  exact spaced_flatten (List.forall_mem_cons.2
    ⟨⟨_, _, rfl, rfl⟩, List.forall_mem_singleton.2 ⟨_, _, rfl, rfl⟩⟩)

/-- Blanks, an unknown field, another name and fields left out. -/
example : Reaction.decode " \x7b \"x\" : [ 1 ] , \"actions\" : \x7b\x7d , \"name\" : \"r\" \x7d " =
    .ok (Reaction.bare "r" "" "") := by rfl

end Reactor
