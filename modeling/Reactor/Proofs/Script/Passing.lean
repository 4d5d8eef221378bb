/-
  Data passed through a script.

  * `Depicts.convertible_iff`: what shows some JSON is converted if that is not
    too deep;
  * `settles_passing`: the four instructions of a script that passes a global on,
    `evaluate_passing` its evaluation;
  * `Route` is the global that the data takes, `Spent` an evaluation that has
    used up what it may use, `PassesOn` one that has passed the data on;
  * `Along`: data that goes through scripts one after the other.
-/
import Reactor.Proofs.Script.Globals

namespace Reactor.Script

open Lua

variable {h : Heap} {v : Value} {j : Json} {d n r : Nat}

/-! ## Depth -/

theorem Plain.depth_eq (hp : Plain v j) : j.depth = 0 := by cases hp <;> rfl

/-- **What shows some JSON can be converted** if that does not nest too deep. -/
theorem Depicts.convertible_iff (hj : Depicts h v j) : Convertible h d v ↔ j.depth ≤ d := by
  induction hj generalizing d with
  | plain hp =>
    rw [hp.depth_eq]
    exact iff_of_true (hp.convertible h d) (Nat.zero_le d)
  | @obj r fields hsorted hkeys hall ih =>
    rw [Json.depth]
    cases d with
    | zero => exact iff_of_false (not_convertible_zero h r) (Nat.not_succ_le_zero _)
    | succ d =>
      rw [convertible_table_succ, Nat.add_le_add_iff_right, Json.fieldsDepth_le]
      constructor
      · rintro ⟨-, hc⟩ s j hmem
        exact (ih s j hmem).1 (hc _ (hall s j hmem).ne_nil)
      · refine fun hd => ⟨.inl fun k hk => ?_, fun k hk => ?_⟩
        · obtain ⟨s, j, rfl, -⟩ := hkeys k hk
          exact ⟨s, rfl⟩
        · obtain ⟨s, j, rfl, hmem⟩ := hkeys k hk
          exact (ih s j hmem).2 (hd s j hmem)
  | @arr r items hne hlisted hall ih =>
    have hlt := Depicts.length_lt hlisted hall
    rw [Json.depth]
    cases d with
    | zero => exact iff_of_false (not_convertible_zero h r) (Nat.not_succ_le_zero _)
    | succ d =>
      rw [convertible_table_succ, Nat.add_le_add_iff_right, Json.itemsDepth_le]
      constructor
      · rintro ⟨-, hc⟩ j hmem
        obtain ⟨i, hi, rfl⟩ := List.getElem_of_mem hmem
        exact (ih i hi).1 (hc _ (hall i hi).ne_nil)
      · refine fun hd => ⟨.inr ⟨_, hlisted⟩, fun k hk => ?_⟩
        obtain ⟨i, hi, rfl⟩ := hlisted.exists_place hlt hk
        exact (ih i hi).2 (hd _ (List.getElem_mem hi))

/-- An object is the input of the next step, if it does not nest too deep. -/
theorem resultInput_of_depicts (hh : h.Valid) {fields : Fields Json}
    (hj : Depicts h v (.obj fields)) (next : String) :
    (∃ f, resultInput h next v = .error f) ∧ ¬(Json.obj fields).depth ≤ 64 ∨
      resultInput h next v = .ok fields ∧ (Json.obj fields).depth ≤ 64 := by
  obtain ⟨r, rfl⟩ : ∃ r, v = .table r := by
    cases hj with
    | plain hp => cases hp
    | obj => exact ⟨_, rfl⟩
  have hok {j : Json} : tableToJson h maxResultDepth r = .ok j ↔
      Depicts h (.table r) j ∧ Convertible h 64 (.table r) := jsonOfTable_eq_ok hh fun r => .refl _
  rw [resultInput]
  by_cases hd : (Json.obj fields).depth ≤ 64
  · refine .inr ⟨?_, hd⟩
    rw [hok.2 ⟨hj, hj.convertible_iff.2 hd⟩]
    rfl
  · refine .inl ⟨?_, hd⟩
    cases hx : tableToJson h maxResultDepth r with
    | ok j => exact absurd (hj.convertible_iff.1 (hok.1 hx).2) hd
    | error f => exact ⟨f, rfl⟩

/-! ## The script -/

/-- The globals of a script, in messages. -/
def globalsHint : Option Hint := some ⟨"upvalue", "_ENV".toUTF8⟩

/-- The code of a script that goes on with a step and what a global holds. -/
def passCode (next name : String) : Array Instr := #[
  .setIndex (.up 0) (.const (.ofString "nextAction")) (.const (.ofString next)) globalsHint,
  .index 0 (.up 0) (.const (.ofString name)) globalsHint,
  .setIndex (.up 0) (.const (.ofString "result")) (.reg 0) globalsHint,
  .ret 0 0 false]

/-- What a script leaves that goes on with a step and a value. -/
structure Left (h : Heap) (next : String) (v : Value) (j : Json) : Prop where
  names : h.Scoped 34
  err : h.global "err" = .ofString ""
  next : h.global "nextAction" = .ofString next
  result : h.global "result" = v
  shows : Shows h v j

variable {f : LuaFrame} {P : Machine → Prop} {k left budget : Nat} {name : String} {value : Operand}

/-- The main function of a script, which knows the globals by its first variable
    and has nothing to close. -/
structure Main (h : Heap) (n : Nat) (f : LuaFrame) : Prop where
  names : h.Scoped n
  globals : h.box (f.ups.getD 0 0) = .table h.globals
  pending : f.pending = []

theorem Main.used (hf : Main h n f) (u : Nat) : Main { h with used := u } n f :=
  ⟨scoped_used hf.names u, hf.globals, hf.pending⟩

theorem Main.set (hf : Main h n f) {h' : Heap} (hg : GlobalSet h n name v h') (pc : Nat) :
    Main h' (n + 1) { f with pc } := by
  refine ⟨hg.names, ?_, hf.pending⟩
  rw [hg.names.place, ← hf.names.place, ← hf.globals, Heap.box, Heap.box, hg.boxes]

/-- A script sets a global. -/
theorem settles_set (hf : Main h n f)
    (hi : f.proto.code[f.pc]? =
      some (.setIndex (.up 0) (.const (.ofString name)) value globalsHint))
    (hmemory : h.limit < h.used → ∀ m, Machine.Failed m .memory → P m)
    (hbudget : left ≤ 1 → ∀ m,
      Machine.Failed m (.value (.failure (Machine.budgetMessage budget))) → P m)
    (hnext : ∀ u h', (h.used ≤ h.limit → u = h.used) → 1 < left →
      GlobalSet { h with used := u } n name (Machine.read h f value) h' →
      Main h' (n + 1) { f with pc := f.pc + 1 } →
      Machine.Settles k (Machine.running h' { f with pc := f.pc + 1 } (left - 1) budget) P)
    (hk : 4 ≤ k) : Machine.Settles (k + 2) (Machine.running h f left budget) P := by
  refine Machine.settles_instruction hi hf.pending hmemory hbudget (fun u hu hleft => ?_) hk
  have hf := hf.used u
  have hobject : Machine.read { h with used := u } { f with pc := f.pc + 1 } (.up 0) =
      .table h.globals := hf.globals
  have hvalue : Machine.read { h with used := u } { f with pc := f.pc + 1 } value =
      Machine.read h f value := by cases value <;> rfl
  rw [Machine.execute_setIndex hobject rfl hf.names.names.plain, hvalue]
  have hset := globalSet_setGlobal hf.names name (Machine.read h f value)
  exact hnext u _ hu hleft hset (hf.set hset (f.pc + 1))

/-- A script reads a global. -/
theorem settles_get (hf : Main h n f) {dst : Nat}
    (hi : f.proto.code[f.pc]? = some (.index dst (.up 0) (.const (.ofString name)) globalsHint))
    (hmemory : h.limit < h.used → ∀ m, Machine.Failed m .memory → P m)
    (hbudget : left ≤ 1 → ∀ m,
      Machine.Failed m (.value (.failure (Machine.budgetMessage budget))) → P m)
    (hnext : ∀ u, (h.used ≤ h.limit → u = h.used) → 1 < left → Main { h with used := u } n f →
      Machine.Settles k (Machine.running { h with used := u }
        { f with pc := f.pc + 1, regs := f.regs.setIfInBounds dst (h.global name) }
        (left - 1) budget) P)
    (hk : 4 ≤ k) : Machine.Settles (k + 2) (Machine.running h f left budget) P := by
  refine Machine.settles_instruction hi hf.pending hmemory hbudget (fun u hu hleft => ?_) hk
  have hf := hf.used u
  have hobject : Machine.read { h with used := u } { f with pc := f.pc + 1 } (.up 0) =
      .table h.globals := hf.globals
  rw [Machine.execute_index hobject rfl hf.names.names.plain]
  exact hnext u hu hleft hf

/-- How a script ends that goes on with a step and a value: the memory is used up,
    or the instructions, or it has left both. -/
inductive Ends (h : Heap) (budget : Nat) (next : String) (v : Value) (j : Json) : Machine → Prop
  | memory {m : Machine} : m.Failed .memory → h.limit < h.used + 6000 → Ends h budget next v j m
  | budget {m : Machine} : m.Failed (.value (.failure (Machine.budgetMessage budget))) →
      budget < 5 → Ends h budget next v j m
  | left {m : Machine} : (∃ vs, m.result? = some (.ok vs)) → Left m.heap next v j →
      Ends h budget next v j m

/-- The globals that a script has set, whatever it has used in between. -/
theorem left_of_globalSet {h₁ h₂ : Heap} {u₁ u₂ : Nat} {next : String}
    (hnext : GlobalSet { h with used := u₁ } 32 "nextAction" (.ofString next) h₁)
    (hresult : GlobalSet { h₁ with used := u₂ } 33 "result" v h₂)
    (herr : h.global "err" = .ofString "") (hshows : Shows h v j) (u : Nat) :
    Left { h₂ with used := u } next v j := by
  have hkeeps : h.Keeps { h₂ with used := u } :=
    Heap.Keeps.trans ⟨hnext.keeps.size, hnext.keeps.table⟩
      ⟨hresult.keeps.size, hresult.keeps.table⟩
  have hglobal₁ (s : String) : h₁.global s =
      if s = "nextAction" then .ofString next else h.global s := hnext.global s
  have hglobal₂ (s : String) : h₂.global s = if s = "result" then v else h₁.global s :=
    hresult.global s
  refine ⟨scoped_used hresult.names u, ?_, ?_, ?_, hshows.mono hkeeps⟩
  · exact (hglobal₂ "err").trans ((hglobal₁ "err").trans herr)
  · exact (hglobal₂ "nextAction").trans (hglobal₁ "nextAction")
  · exact hglobal₂ "result"

/-- **A script that passes on a global** runs its four instructions. -/
theorem settles_passing {next : String} (hf : Main h 32 f)
    (hshows : Shows h (h.global name) j) (herr : h.global "err" = .ofString "")
    (hname : name ≠ "nextAction") (hcode : f.proto.code = passCode next name) (hpc : f.pc = 0)
    (hregs : 0 < f.regs.size) :
    Machine.Settles 12 (Machine.running h f budget budget)
      (Ends h budget next (h.global name) j) := by
  have hi₁ : f.proto.code[f.pc]? = some (.setIndex (.up 0) (.const (.ofString "nextAction"))
      (.const (.ofString next)) globalsHint) := by rw [hcode, hpc]; rfl
  have hi₂ : f.proto.code[f.pc + 1]? = some (.index 0 (.up 0) (.const (.ofString name))
      globalsHint) := by rw [hcode, hpc]; rfl
  have hi₃ : f.proto.code[f.pc + 1 + 1]? = some (.setIndex (.up 0) (.const (.ofString "result"))
      (.reg 0) globalsHint) := by rw [hcode, hpc]; rfl
  have hi₄ : f.proto.code[f.pc + 1 + 1 + 1]? = some (.ret 0 0 false) := by rw [hcode, hpc]; rfl
  refine settles_set (k := 10) hf hi₁ (fun hover m hm => .memory hm (by omega))
    (fun hleft m hm => .budget hm (by omega)) (fun u₁ h₁ hu₁ hleft₁ hset₁ hf₁ => ?_) (by decide)
  have hlimit₁ : h₁.limit = h.limit := hset₁.limit
  have hused₁ : h₁.used ≤ u₁ + (56 + 48 * (32 + 1)) := hset₁.used
  refine settles_get (k := 8) hf₁ hi₂ (fun hover m hm => .memory hm (by omega))
    (fun hleft m hm => .budget hm (by omega)) (fun u₂ hu₂ hleft₂ hf₂ => ?_) (by decide)
  have hglobal₁ : h₁.global name = h.global name := (hset₁.global name).trans (if_neg hname)
  rw [hglobal₁]
  have hf₂ : Main { h₁ with used := u₂ } 33
      { f with pc := f.pc + 1 + 1, regs := f.regs.setIfInBounds 0 (h.global name) } :=
    ⟨hf₂.names, hf₂.globals, hf₂.pending⟩
  refine settles_set (k := 6) hf₂ hi₃ (fun hover m hm => .memory hm (by dsimp only at hover; omega))
    (fun hleft m hm => .budget hm (by omega)) (fun u₃ h₃ hu₃ hleft₃ hset₃ hf₃ => ?_) (by decide)
  have hlimit₃ : h₃.limit = h₁.limit := hset₃.limit
  have hused₃ : h₃.used ≤ u₃ + (56 + 48 * (33 + 1)) := hset₃.used
  have hu₃ : u₂ ≤ h₁.limit → u₃ = u₂ := hu₃
  refine Machine.settles_instruction (k := 4) hi₄ hf₃.pending
    (fun hover m hm => .memory hm (by omega)) (fun hleft m hm => .budget hm (by omega))
    (fun u₄ hu₄ hleft₄ => ?_) (by decide)
  refine .mono (k := 1) (by decide) (Machine.settles_ret hf₃.pending fun m hdone hheap =>
    .left hdone ?_)
  have hregister : Machine.read { h₁ with used := u₂ }
      { f with pc := f.pc + 1 + 1, regs := f.regs.setIfInBounds 0 (h.global name) } (.reg 0) =
        h.global name := by
    rw [Machine.read, Array.getD_eq_getD_getElem?, Array.getElem?_setIfInBounds_self_of_lt hregs]
    rfl
  rw [hregister] at hset₃
  rw [hheap]
  exact left_of_globalSet hset₁ hset₃ herr hshows u₄

/-! ## Evaluation -/

/-- An evaluation has used up the memory or the instructions that it has. -/
def Spent (l : Limits) (r : Except ScriptError Decision) : Prop :=
  r = .error (.binding "memory error: not enough memory") ∨
    r = .error (.runtime "memory error: not enough memory") ∨
    r = .error (.runtime ("runtime error: " ++ Machine.budgetMessage (max 1 l.instructions)))

/-- Five instructions, and eight thousand bytes beyond those of the data, are more
    than a script takes that passes the data on. -/
def Suffices (l : Limits) (event : Payload) (prior : Option Payload) : Prop :=
  5 ≤ l.instructions ∧ (seeded l.effective event prior).used + 8000 ≤ l.room

instance (l : Limits) (event : Payload) (prior : Option Payload) :
    Decidable (Suffices l event prior) :=
  inferInstanceAs (Decidable (_ ∧ _))

/-- An evaluation goes on with step `x` and the data as a script passes it on, or
    refuses data that nests more than 64 deep. -/
def PassesOn (p : Payload) (r : Except ScriptError Decision) : Prop :=
  ((Json.obj p).depth ≤ 64 → r = .ok (.continue_ "x" (Json.passedFields p))) ∧
    (64 < (Json.obj p).depth → ∃ m, r = .error (.contract m))

variable {limits : Limits} {event p : Payload} {prior : Option Payload} {source : String}

/-- What an evaluation makes of how its script has ended. -/
def decided (m : Machine) : Except ScriptError Decision :=
  match outcome m with
  | .error e => .error (.runtime (faultText e))
  | .ok _ => decisionOf m

theorem evaluate_eq {program : Chunk} (hseeded : seeded limits.effective event prior = h)
    (hparse : parse 0 source.toUTF8 = .ok program) :
    evaluate limits event prior source =
      if h.used > h.limit then .error (.binding "memory error: not enough memory")
      else decided (runMain limits.effective h (compile scriptName program)) := by
  subst hseeded
  unfold evaluate
  simp only [hparse]
  split
  · rfl
  · unfold decided
    generalize runMain _ _ _ = m
    cases outcome m <;> rfl

/-- The main function of a script starts on the globals. -/
theorem runMain_eq (l : Limits) {proto : Proto} (hs : h.Scoped n) (hsize : proto.size = 3) :
    ∃ (h' : Heap) (f : LuaFrame), runMain l h proto =
        (Machine.running h' f l.instructions l.instructions).run horizon ∧
      Main h' n f ∧ f.proto = proto ∧ f.pc = 0 ∧ 0 < f.regs.size ∧ h.Keeps h' ∧
      (∀ s, h'.global s = h.global s) ∧ h'.used = h.used + 88 ∧ h'.limit = h.limit := by
  have hstart : Machine.start h l.instructions (do
      let f ← Library.instantiate proto (.table h.globals)
      Lua.Task.call f #[] none) = _ := Machine.start_main (by rw [hsize]; decide)
  refine ⟨_, _, congrArg (Machine.run horizon) hstart,
    ⟨⟨hs.place, hs.inside, hs.names, hs.valid⟩, ?_, rfl⟩, rfl, rfl, ?_,
    ⟨Nat.le_refl _, fun _ _ _ => rfl⟩, fun _ => rfl, rfl, rfl⟩
  · rw [Heap.box, Array.getD_eq_getD_getElem?]
    exact congrArg (Option.getD · Value.nil) Array.getElem?_push_size
  · simp [enter, hsize]

theorem passesOn_resultInput (hh : h.Valid) (hj : Depicts h v (Json.obj p).passed) :
    PassesOn p (((resultInput h "x" v).mapError ContractFault.toError).map (.continue_ "x")) := by
  have hpassed : (Json.obj p).passed = .obj (Json.passedFields p) := by rw [Json.passed]
  have hdepth := Json.depth_passed (.obj p)
  rw [hpassed] at hj hdepth
  rcases resultInput_of_depicts hh hj "x" with ⟨⟨f, hf⟩, hdeep⟩ | ⟨hok, hd⟩
  · rw [hf]
    exact ⟨fun hd => absurd (hdepth ▸ hd) hdeep, fun _ => ⟨f.message, rfl⟩⟩
  · rw [hok]
    exact ⟨fun _ => rfl, fun hdeep => absurd hd (by omega)⟩

/-- The decision of a script that passes a value on, as it has ended. -/
theorem decided_of_ends {m : Machine}
    (hends : Ends h (max 1 limits.instructions) "x" v (Json.obj p).passed m) :
    (Spent limits (decided m) ∨ PassesOn p (decided m)) ∧
      (5 ≤ limits.instructions → h.used + 6000 ≤ h.limit → PassesOn p (decided m)) := by
  unfold decided
  cases hends with
  | memory hfailed hspent =>
    have houtcome : outcome m = .error .memory := by rw [outcome, hfailed]; rfl
    simp only [houtcome]
    exact ⟨.inl (.inr (.inl rfl)), fun _ hroom => by omega⟩
  | budget hfailed hspent =>
    have houtcome : outcome m = .error (.value (.failure
      (Machine.budgetMessage (max 1 limits.instructions)))) := by rw [outcome, hfailed]; rfl
    simp only [houtcome]
    exact ⟨.inl (.inr (.inr rfl)), fun hbudget _ => by omega⟩
  | left hdone hleft =>
    obtain ⟨vs, hdone⟩ := hdone
    have houtcome : outcome m = .ok vs := by rw [outcome, hdone]; rfl
    simp only [houtcome]
    have hpasses : PassesOn p (decisionOf m) := by
      rw [decisionOf_eq hleft.names hleft.err hleft.next (by decide), hleft.result]
      exact passesOn_resultInput hleft.names.valid (hleft.shows m.heap (.refl _))
    exact ⟨.inr hpasses, fun _ _ => hpasses⟩

/-- A source is compiled to some code, which needs three registers. -/
def CompilesTo (source : String) (code : Array Instr) : Prop :=
  ∃ program, parse 0 source.toUTF8 = .ok program ∧
    (compile scriptName program).code = code ∧ (compile scriptName program).size = 3

instance (source : String) (code : Array Instr) : Decidable (CompilesTo source code) :=
  match hparse : parse 0 source.toUTF8 with
  | .ok program =>
    decidable_of_iff
      ((compile scriptName program).code = code ∧ (compile scriptName program).size = 3)
      ⟨fun h => ⟨program, hparse, h⟩, fun ⟨_, hok, h⟩ => by rw [hparse] at hok; cases hok; exact h⟩
  | .error _ => .isFalse fun ⟨_, hok, _⟩ => by rw [hparse] at hok; cases hok

/-- **The evaluation of a script** that goes on with a global that shows data. -/
theorem evaluate_passing {name : String} (hseeded : seeded limits.effective event prior = h)
    (hs : Started h event prior) (hlimit : h.limit = limits.room)
    (hsource : CompilesTo source (passCode "x" name)) (hname : name ≠ "nextAction")
    (hshows : Shows h (h.global name) (Json.obj p).passed) :
    let r := evaluate limits event prior source
    (Spent limits r ∨ PassesOn p r) ∧ (Suffices limits event prior → PassesOn p r) := by
  obtain ⟨program, hparse, hcode, hsize⟩ := hsource
  have hroom : Suffices limits event prior → h.used + 8000 ≤ h.limit := fun hsuffices => by
    rw [hlimit, ← hseeded]
    exact hsuffices.2
  rw [evaluate_eq hseeded hparse]
  split
  · exact ⟨.inl (.inl rfl), fun hsuffices => absurd (hroom hsuffices) (by omega)⟩
  · obtain ⟨h', f, hrun, hmain, hproto, hpc, hregs, hkeeps, hglobal, hused, hlimit'⟩ :=
      runMain_eq limits.effective hs.names hsize
    have hshows' : Shows h' (h'.global name) (Json.obj p).passed := by
      rw [hglobal]
      exact hshows.mono hkeeps
    have herr : h'.global "err" = .ofString "" := (hglobal "err").trans hs.err
    have hcode' : f.proto.code = passCode "x" name := by rw [hproto, hcode]
    have hends : Ends h' limits.effective.instructions "x" (h'.global name) (Json.obj p).passed _ :=
      settles_passing hmain hshows' herr hname hcode' hpc hregs horizon (by decide)
    rw [← hrun] at hends
    obtain ⟨heither, hpasses⟩ := decided_of_ends hends
    exact ⟨heither, fun hsuffices => hpasses hsuffices.1 (by have := hroom hsuffices; omega)⟩

/-! ## Passing on -/

theorem compilesTo_event :
    CompilesTo "nextAction = 'x'; result = event" (passCode "x" "event") := by
  decide +kernel

theorem compilesTo_prior :
    CompilesTo "nextAction = 'x'; result = actionData" (passCode "x" "actionData") := by
  decide +kernel

/-- How data gets to a script that passes it on. -/
inductive Route where
  /-- as the data of the event, whatever the step before has given -/
  | asEvent (prior : Option Payload)
  /-- as the output of the step before, whatever the event -/
  | asPrior (event : Payload)

namespace Route

/-- The data of the event. -/
def eventOf (p : Payload) : Route → Payload
  | .asEvent _ => p
  | .asPrior e => e

/-- The output of the step before. -/
def priorOf (p : Payload) : Route → Option Payload
  | .asEvent q => q
  | .asPrior _ => some p

/-- The script that goes on with the data. -/
def script : Route → String
  | .asEvent _ => "nextAction = 'x'; result = event"
  | .asPrior _ => "nextAction = 'x'; result = actionData"

/-- What the script makes of the data. -/
def pass (route : Route) (l : Limits) (p : Payload) : Except ScriptError Decision :=
  evaluate l (route.eventOf p) (route.priorOf p) route.script

/-- What else the script is given is proper. -/
def Proper : Route → Prop
  | .asEvent q => ∀ p, q = some p → (Json.obj p).Proper
  | .asPrior e => (Json.obj e).Proper

/-- The script may use more than it takes. -/
def Suffices (route : Route) (l : Limits) (p : Payload) : Prop :=
  Script.Suffices l (route.eventOf p) (route.priorOf p)

end Route

variable {l : Limits} {route : Route}

/-- **A script passes data on**, unless it has used up what it may use. -/
theorem pass_passesOn (l : Limits) (hp : (Json.obj p).Proper) (hroute : route.Proper) :
    (Spent l (route.pass l p) ∨ PassesOn p (route.pass l p)) ∧
      (route.Suffices l p → PassesOn p (route.pass l p)) := by
  cases route with
  | asEvent prior =>
    obtain ⟨hs, hlimit⟩ := started_seeded l.effective hp hroute
    exact evaluate_passing rfl hs hlimit compilesTo_event (by decide) hs.event
  | asPrior event =>
    have hprior : ∀ q, some p = some q → (Json.obj q).Proper := fun q hq => Option.some.inj hq ▸ hp
    obtain ⟨hs, hlimit⟩ := started_seeded l.effective hroute hprior
    exact evaluate_passing rfl hs hlimit compilesTo_prior (by decide) (hs.prior p rfl)

/-- Data goes through scripts one after the other, each of which goes on with what
    the one before has made of it. -/
inductive Along : List (Limits × Route) → Payload → Payload → Prop
  | nil (p : Payload) : Along [] p p
  | cons {l : Limits} {route : Route} {steps : List (Limits × Route)} {next : String}
      {p q r : Payload} : route.pass l p = .ok (.continue_ next q) → Along steps q r →
      Along ((l, route) :: steps) p r

variable {q : Payload} {next : String} {steps : List (Limits × Route)}

theorem Spent.not_ok {r : Except ScriptError Decision} {d : Decision} (hr : Spent l r) :
    r ≠ .ok d := by
  rintro rfl
  rcases hr with h | h | h <;> cases h

/-- A script that goes on has not refused the data and not changed its step. -/
theorem pass_eq_ok (hp : (Json.obj p).Proper) (hroute : route.Proper)
    (hok : route.pass l p = .ok (.continue_ next q)) :
    (Json.obj p).depth ≤ 64 ∧ q = Json.passedFields p := by
  rcases (pass_passesOn l hp hroute).1 with hspent | ⟨hshallow, hdeep⟩
  · exact absurd hok hspent.not_ok
  · by_cases hd : (Json.obj p).depth ≤ 64
    · have := (hshallow hd).symm.trans hok
      cases this
      exact ⟨hd, rfl⟩
    · obtain ⟨m, hm⟩ := hdeep (by omega)
      rw [hm] at hok
      cases hok

/-- Data that scripts have passed on before is not changed by more of them. -/
theorem Along.unchanged (hp : (Json.obj p).Proper) (hsteps : ∀ s ∈ steps, s.2.Proper)
    (h : Along steps (Json.passedFields p) q) : q = Json.passedFields p := by
  induction steps with
  | nil => cases h; rfl
  | cons s steps ih =>
    cases h with
    | cons hok hrest =>
      obtain ⟨-, rfl⟩ := pass_eq_ok (hp.passedFields) (hsteps _ List.mem_cons_self) hok
      rw [Json.passedFields_passedFields] at hrest
      exact ih (fun s hs => hsteps s (List.mem_cons_of_mem _ hs)) hrest

/-- Scripts that have enough to use pass on data that others have passed on before. -/
theorem along_passedFields (hp : (Json.obj p).Proper) (hd : (Json.obj p).depth ≤ 64)
    (hsteps : ∀ s ∈ steps, s.2.Proper ∧ s.2.Suffices s.1 (Json.passedFields p)) :
    Along steps (Json.passedFields p) (Json.passedFields p) := by
  induction steps with
  | nil => exact .nil _
  | cons s steps ih =>
    obtain ⟨hroute, hsuffices⟩ := hsteps s List.mem_cons_self
    have hpass := ((pass_passesOn s.1 (hp.passedFields) hroute).2 hsuffices).1
      (Json.depth_passedFields p ▸ hd)
    rw [Json.passedFields_passedFields] at hpass
    exact .cons hpass (ih fun s hs => hsteps s (List.mem_cons_of_mem _ hs))

/-- **Data is passed through scripts.**  A script that goes on with the data of the
    event, or with the output of the step before, goes on with the data as it is
    passed on, and refuses it if it nests more than 64 deep; all of this unless the
    script uses up what it may use.  Passing on a second time changes nothing: what
    has gone through any scripts has changed once. -/
theorem data_passes_once (hp : (Json.obj p).Proper) :
    (∀ (l : Limits) (route : Route), route.Proper →
      (Spent l (route.pass l p) ∨ PassesOn p (route.pass l p)) ∧
        (route.Suffices l p → PassesOn p (route.pass l p))) ∧
    Json.passedFields (Json.passedFields p) = Json.passedFields p ∧
    (∀ (steps : List (Limits × Route)) (q : Payload), steps ≠ [] → (∀ s ∈ steps, s.2.Proper) →
      Along steps p q → (Json.obj p).depth ≤ 64 ∧ q = Json.passedFields p) ∧
    (∀ (l : Limits) (route : Route) (steps : List (Limits × Route)), (Json.obj p).depth ≤ 64 →
      route.Proper → route.Suffices l p →
      (∀ s ∈ steps, s.2.Proper ∧ s.2.Suffices s.1 (Json.passedFields p)) →
      Along ((l, route) :: steps) p (Json.passedFields p)) := by
  refine ⟨fun l route => pass_passesOn l hp, Json.passedFields_passedFields p, ?_, ?_⟩
  · intro steps q hne hsteps halong
    cases halong with
    | nil => exact absurd rfl hne
    | cons hok hrest =>
      obtain ⟨hd, rfl⟩ := pass_eq_ok hp (hsteps _ List.mem_cons_self) hok
      exact ⟨hd, hrest.unchanged hp fun s hs => hsteps s (List.mem_cons_of_mem _ hs)⟩
  · intro l route steps hd hroute hsuffices hsteps
    exact .cons (((pass_passesOn l hp hroute).2 hsuffices).1 hd) (along_passedFields hp hd hsteps)

/-- Data with all that passing on changes, and with nulls and a list that it keeps. -/
def sample : Payload :=
  [("big", .int 9223372036854775808), ("empty", .arr []), ("list", .arr [.null, .int 1]),
    ("none", .null)]

theorem proper_sample : (Json.obj sample).Proper := by
  refine .obj (by unfold Fields.Sorted; decide) ?_
  simp only [sample, List.mem_cons, Prod.mk.injEq, List.not_mem_nil, or_false]
  rintro k j (⟨rfl, rfl⟩ | ⟨rfl, rfl⟩ | ⟨rfl, rfl⟩ | ⟨rfl, rfl⟩)
  · exact .int (by decide) (by decide)
  · exact .arr (by decide) nofun
  · refine .arr (by decide) ?_
    simp only [List.mem_cons, List.not_mem_nil, or_false]
    rintro j (rfl | rfl)
    · exact .null
    · exact .int (by decide) (by decide)
  · exact .null

/-- Objects inside each other. -/
def nested : Nat → Payload
  | 0 => []
  | n + 1 => [("", .obj (nested n))]

theorem proper_nested (n : Nat) : (Json.obj (nested n)).Proper := by
  induction n with
  | zero => exact .obj .nil nofun
  | succ n ih =>
    refine .obj (List.pairwise_singleton _ _) fun k j hmem => ?_
    cases List.mem_singleton.1 hmem
    exact ih

theorem depth_nested (n : Nat) : (Json.obj (nested n)).depth = n + 1 := by
  induction n with
  | zero => rfl
  | succ n ih => rw [nested, Json.depth, Json.fieldsDepth, ih, Json.fieldsDepth, Nat.max_zero]

/-- The sample goes through two scripts, first as the data of the event and then as
    the output of the step before; 65 objects inside each other go through none. -/
theorem data_passes_once_sample :
    Along [(.standard, .asEvent none), (.standard, .asPrior sample)] sample
        [("big", .float (Decimal.ofInt 9223372036854775808)), ("empty", .obj []),
          ("list", .arr [.null, .int 1]), ("none", .null)] ∧
      ∃ m, (Route.asPrior sample).pass .standard (nested 64) = .error (.contract m) := by
  have hroute : (Route.asPrior sample).Proper := proper_sample
  have hfirst : (Route.asEvent none).Suffices .standard sample := by
    unfold Route.Suffices
    decide +kernel
  have hsecond : (Route.asPrior sample).Suffices .standard (Json.passedFields sample) := by
    unfold Route.Suffices
    decide +kernel
  have hnested : (Route.asPrior sample).Suffices .standard (nested 64) := by
    unfold Route.Suffices
    decide +kernel
  constructor
  · refine (data_passes_once proper_sample).2.2.2 .standard (.asEvent none) _ (by decide) nofun
      hfirst ?_
    intro s hs
    cases List.mem_singleton.1 hs
    exact ⟨hroute, hsecond⟩
  · exact (((data_passes_once (proper_nested 64)).1 .standard (.asPrior sample) hroute).2 hnested).2
      (by rw [depth_nested]; decide)

end Reactor.Script
