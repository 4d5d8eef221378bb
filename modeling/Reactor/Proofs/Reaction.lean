/-
  Reactions, named, written and read.

  * `normalize_idem`: steps are named once;
  * `decodeSteps_text`: sorted steps are read back from their text;
  * `sorted_of_gives`: the steps of a reaction that was read are sorted.
-/
import Reactor.Proofs.Json.Records
import Reactor.Proofs.Json.Slots
import Reactor.Reaction

namespace Reactor

open Json Json.Decoder

namespace ActionStep

theorem ofJson_toJson (s : ActionStep) : ofJson s.toJson = s := rfl

/-- The fields of a step. -/
def layout : Layout ActionStep where
  title := "struct ActionStep"
  slots := [.plain (optional "name" (.str "") text) fun s => .str s.name,
    .plain (required "module" text) fun s => .str s.module,
    .plain (required "action" text) fun s => .str s.action,
    .plain (optional "script" (.str "") text) fun s => .str s.script]

theorem strict_layout : layout.Strict where
  distinct := by unfold Layout.Distinct; decide
  slots := by
    simp only [layout, List.forall_mem_cons]
    exact ⟨Slot.strict_text rfl, Slot.strict_text rfl, Slot.strict_text rfl, Slot.strict_text rfl,
      List.forall_mem_nil _⟩

theorem sound_layout (s : ActionStep) (depth : Nat) : layout.Sound s depth := by
  simp only [Layout.Sound, layout, List.forall_mem_cons]
  exact ⟨Slot.sound_text rfl name, Slot.sound_text rfl module, Slot.sound_text rfl action,
    Slot.sound_text rfl script, List.forall_mem_nil _⟩

end ActionStep

namespace Reaction

/-- A step with a name: its own, or else its key. -/
def named (k : String) (s : ActionStep) : ActionStep :=
  if s.name = "" then { s with name := k } else s

theorem normalize_steps (r : Reaction) :
    r.normalize.steps = r.steps.map fun f => (f.1, named f.1 f.2) := rfl

theorem named_named (k : String) (s : ActionStep) : named k (named k s) = named k s := by
  unfold named
  by_cases h : s.name = ""
  · simp only [h, if_true]; split <;> rfl
  · simp only [h, if_false]

theorem normalize_idem (r : Reaction) : r.normalize.normalize = r.normalize := by
  have hsteps : r.normalize.normalize.steps = r.normalize.steps := by
    rw [normalize_steps, normalize_steps, List.map_map]
    exact List.map_congr_left fun f _ => congrArg (Prod.mk f.1) (named_named f.1 f.2)
  show ({ r with steps := r.normalize.normalize.steps } : Reaction) = r.normalize
  rw [hsteps]; rfl

theorem sorted_normalize {r : Reaction} (h : r.steps.Sorted) : r.normalize.steps.Sorted :=
  Fields.Sorted.map (g := named) h

/-! ## Steps as text -/

theorem stepsOfFields_toJson (steps : Fields ActionStep) :
    stepsOfFields (steps.map fun f => (f.1, f.2.toJson)) = steps := by
  rw [stepsOfFields, List.map_map]
  refine (List.map_congr_left fun f _ => ?_).trans (List.map_id steps)
  show (f.1, ActionStep.ofJson f.2.toJson) = f
  rw [ActionStep.ofJson_toJson]

/-- **Steps are read back from their text.** -/
theorem decodeSteps_text {steps : Fields ActionStep} (hs : steps.Sorted) :
    decodeSteps (stepsToJson steps).compress = .ok steps := by
  have hsound : (Slot.table "steps" ["actions"] ActionStep.layout id).Sound steps 127 :=
    Slot.sound_table hs ActionStep.strict_layout.distinct fun f _ => f.2.sound_layout 125
  have hdecode : Json.decode stepsForm (stepsToJson steps).compress = .ok (stepsToJson steps) :=
    decode_of_reads (hsound.reads _ hsound.own) (written_phrase hsound.wellFormed)
  rw [decodeSteps, hdecode]
  exact congrArg Except.ok (stepsOfFields_toJson steps)

/-! ## Reactions that were read -/

/-- The fields of a reaction. -/
def fields : List Field :=
  [required "name" text, optional "event" (.str "") text, optional "script" (.str "") text,
    ⟨"steps", ["actions"], some (.obj []), stepsForm⟩]

theorem fields_distinct : ∀ f ∈ fields, ∀ g ∈ fields, f.name = g.name → f = g := by
  simp [fields, required, Decoder.optional]

/-- The steps in an object are sorted if they were read as steps. -/
theorem sorted_of_holds {j : Json}
    (h : Field.Holds ⟨"steps", ["actions"], some (.obj []), stepsForm⟩ j) :
    ∃ fs : Fields Json, j = .obj fs ∧ (stepsOfFields fs).Sorted := by
  rcases h with h | h
  · cases h; exact ⟨[], rfl, List.Pairwise.nil⟩
  · obtain ⟨fs, rfl, hs, -⟩ := gives_table h
    exact ⟨fs, rfl, hs.map (g := fun _ j => ActionStep.ofJson j)⟩

/-- **The steps of a reaction that was read are sorted.** -/
theorem sorted_of_gives {j : Json} (h : Gives form j) : (ofJson j).steps.Sorted := by
  obtain ⟨all, hall, rfl⟩ := gives_record fields_distinct h
  obtain _ | @⟨_, ⟨_, name⟩, _, _, ⟨rfl, -⟩, hall⟩ := hall
  obtain _ | @⟨_, ⟨_, event⟩, _, _, ⟨rfl, -⟩, hall⟩ := hall
  obtain _ | @⟨_, ⟨_, script⟩, _, _, ⟨rfl, -⟩, hall⟩ := hall
  obtain _ | @⟨_, ⟨_, steps⟩, _, _, ⟨rfl, hsteps⟩, hall⟩ := hall
  cases hall
  obtain ⟨fs, rfl, hs⟩ := sorted_of_holds hsteps
  exact hs

end Reaction

end Reactor
