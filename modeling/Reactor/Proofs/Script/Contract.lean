/-
  The contract of a decision.

  A script that has run to its end decides by what it leaves in `err`, `nextAction`
  and `result`, in this order.

  * `HandedOver`: the data can be handed to scripts; `ended_isSome`: then every one
    that can be compiled is run;
  * `Reads`: what a value is as a text, `Becomes`: the object that a value is;
    `Prescribes` is the contract for any three values;
  * `decisionOf_prescribes`: it is kept where the globals have no metatable;
  * `evaluate_next_ne` and `dispatches_ne`: no script goes on with the empty step,
    and no pipeline dispatches it;
  * `decides_by_contract` is all of this.
-/
import Reactor.Proofs.Engine.Ending
import Reactor.Proofs.Script.Course

namespace Reactor.Script

open Lua

variable {limits : Limits} {event : Payload} {prior : Option Payload} {source : String}
  {m : Machine} {h : Heap} {v : Value}

/-! ## Values of the globals -/

/-- What a value is as a text; `nil` is the empty one. -/
inductive Reads : Value → String → Prop
  | nil : Reads .nil ""
  | text (t : String) : Reads (.ofString t) t

/-- A value is a table that is an object as JSON. -/
def Becomes (h : Heap) (v : Value) (input : Payload) : Prop :=
  ∃ k, v = .table k ∧ tableToJson h maxResultDepth k = .ok (.obj input)

/-- The contract: what a script decides that leaves `e` in `err`, `n` in `nextAction`
    and `r` in `result`. -/
inductive Prescribes (h : Heap) (e n r : Value) : Except ScriptError Decision → Prop
  | badError {t : String} : (∀ s, ¬Reads e s) → Prescribes h e n r (.error (.contract t))
  | declared {s : String} : Reads e s → s ≠ "" → Prescribes h e n r (.error (.declared s))
  | badNext {t : String} : Reads e "" → (∀ s, ¬Reads n s) →
      Prescribes h e n r (.error (.contract t))
  | stop : Reads e "" → Reads n "" → Prescribes h e n r (.ok .stop)
  | goOn {next : String} {input : Payload} : Reads e "" → Reads n next → next ≠ "" →
      Becomes h r input → Prescribes h e n r (.ok (.continue_ next input))
  | badResult {next t : String} : Reads e "" → Reads n next → next ≠ "" →
      (∀ input, ¬Becomes h r input) → Prescribes h e n r (.error (.contract t))

/-- A global that must be a text is read as what it is. -/
theorem readText_of_plain (hplain : m.heap.PlainGlobals) (name : String) :
    ∃ m', m'.heap = m.heap ∧
      ((∃ s, Reads (m.heap.global name) s ∧ readText m name = (m', .ok s)) ∨
        (∀ s, ¬Reads (m.heap.global name) s) ∧ ∃ f, readText m name = (m', .error f)) := by
  obtain ⟨m', hread, hheap⟩ := readGlobal_eq hplain name
  refine ⟨m', hheap, ?_⟩
  rw [readText, hread]
  generalize m.heap.global name = v
  cases v with
  | nil => exact .inl ⟨"", .nil, rfl⟩
  | str s =>
    cases hs : Text.Utf8.decode s with
    | ok t =>
      rw [Text.Utf8.decode_eq_ok] at hs
      subst hs
      exact .inl ⟨t, .text t, by simp only [Text.Utf8.decode_eq_ok.2 rfl]⟩
    | error f =>
      refine .inr ⟨fun t ht => ?_, _, by simp only [hs]; rfl⟩
      cases ht
      rw [Text.Utf8.decode_eq_ok.2 rfl] at hs
      cases hs
  | _ => exact .inr ⟨fun t ht => (by cases ht), _, rfl⟩

theorem resultInput_of_becomes {next : String} {input : Payload} (hv : Becomes h v input) :
    resultInput h next v = .ok input := by
  obtain ⟨k, rfl, hk⟩ := hv
  rw [resultInput, hk]
  rfl

theorem decisionOf_of_declared {err : Machine} {s : String}
    (herr : readText m "err" = (err, .ok s)) (hne : s ≠ "") :
    decisionOf m = .error (.declared s) := by
  unfold decisionOf
  simp only [herr]
  exact if_pos hne

theorem decisionOf_of_stop {err next : Machine} (herr : readText m "err" = (err, .ok ""))
    (hnext : readText err "nextAction" = (next, .ok "")) : decisionOf m = .ok .stop := by
  unfold decisionOf
  simp only [herr, hnext]
  rfl

/-- **The contract is kept** where the globals have no metatable. -/
theorem decisionOf_prescribes (hplain : m.heap.PlainGlobals) :
    Prescribes m.heap (m.heap.global "err") (m.heap.global "nextAction") (m.heap.global "result")
      (decisionOf m) := by
  obtain ⟨m₁, hheap₁, ⟨s, hs, herr⟩ | ⟨hbad, f, herr⟩⟩ := readText_of_plain hplain "err"
  swap
  · rw [decisionOf_of_err (congrArg Prod.snd herr)]
    exact .badError hbad
  by_cases hne : s ≠ ""
  · rw [decisionOf_of_declared herr hne]
    exact .declared hs hne
  rw [not_not] at hne
  subst hne
  obtain ⟨m₂, hheap₂, ⟨next, hn, hnext⟩ | ⟨hbad, f, hnext⟩⟩ :=
    readText_of_plain (m := m₁) (hheap₁ ▸ hplain) "nextAction"
  swap
  · rw [decisionOf_of_next herr (congrArg Prod.snd hnext)]
    exact .badNext hs (hheap₁ ▸ hbad)
  rw [hheap₁] at hn hheap₂
  by_cases hempty : next = ""
  · subst hempty
    rw [decisionOf_of_stop herr hnext]
    exact .stop hs hn
  obtain ⟨m₃, hresult, hheap₃⟩ := readGlobal_eq (m := m₂) (hheap₂ ▸ hplain) "result"
  rw [decisionOf_of_next_ne herr hnext hempty hresult, hheap₃, hheap₂]
  cases hinput : resultInput m.heap next (m.heap.global "result") with
  | ok input => exact .goOn hs hn hempty (resultInput_eq_ok hinput)
  | error f =>
    refine .badResult hs hn hempty fun input hbecomes => ?_
    rw [resultInput_of_becomes hbecomes] at hinput
    cases hinput

/-! ## Evaluations -/

/-- The data takes no more than the memory that there is. -/
def Fits (limits : Limits) (event : Payload) (prior : Option Payload) : Prop :=
  (seeded limits.effective event prior).used ≤ (seeded limits.effective event prior).limit

theorem evaluate_of_not_fits (hfits : ¬Fits limits event prior) :
    evaluate limits event prior source = .error (.binding "memory error: not enough memory") := by
  unfold evaluate
  dsimp only
  rw [if_pos (Nat.lt_of_not_le hfits)]
  rfl

theorem evaluate_of_parse_error (hfits : Fits limits event prior) {e : ParseError}
    (hparse : parse 0 source.toUTF8 = .error e) :
    ∃ t, evaluate limits event prior source = .error (.runtime t) := by
  unfold evaluate
  dsimp only
  rw [if_neg (Nat.not_lt.2 hfits), hparse]
  cases e <;> exact ⟨_, rfl⟩

theorem ended_isSome (hfits : Fits limits event prior) {program : Chunk}
    (hparse : parse 0 source.toUTF8 = .ok program) :
    (ended limits event prior source).isSome = true := by
  rw [ended, begun_eq_some.2 ⟨Nat.not_lt.2 hfits, program, hparse, rfl⟩]
  rfl

theorem evaluate_of_ended (hm : ended limits event prior source = some m) :
    evaluate limits event prior source = decided m := by
  obtain ⟨start, hstart, rfl⟩ := Option.map_eq_some_iff.1 hm
  exact evaluate_of_begun hstart

theorem decided_of_error {f : Fault} (hresult : m.result? = some (.error f)) :
    ∃ t, decided m = .error (.runtime t) := by
  rw [decided, outcome, hresult]
  exact ⟨_, rfl⟩

theorem decided_of_ok {vs : Array Value} (hresult : m.result? = some (.ok vs)) :
    decided m = decisionOf m := by
  rw [decided, outcome, hresult]
  rfl

/-! ## Handing over -/

/-- The data can be handed to scripts: none ends because it cannot. -/
def HandedOver (limits : Limits) (event : Payload) (prior : Option Payload) : Prop :=
  ∀ source t, evaluate limits event prior source ≠ .error (.binding t)

theorem decisionOf_ne_binding (m : Machine) (t : String) : decisionOf m ≠ .error (.binding t) := by
  have hcontract {α : Type} {r : Except ContractFault α} {e : ScriptError}
      (hr : r.mapError ContractFault.toError = .error e) : ∃ t, e = .contract t := by
    cases r with
    | ok a => cases hr
    | error f => cases hr; exact ⟨_, rfl⟩
  intro hd
  unfold decisionOf at hd
  dsimp only at hd
  rcases Except.bind_eq_error.1 hd with herr | ⟨err, -, hd⟩
  · obtain ⟨t, ht⟩ := hcontract herr
    cases ht
  split at hd
  · cases hd
  rcases Except.bind_eq_error.1 hd with hnext | ⟨next, -, hd⟩
  · obtain ⟨t, ht⟩ := hcontract hnext
    cases ht
  split at hd
  · cases hd
  rcases Except.bind_eq_error.1 hd with hresult | ⟨v, -, hd⟩
  · obtain ⟨t, ht⟩ := hcontract hresult
    cases ht
  rcases Except.bind_eq_error.1 hd with hinput | ⟨input, -, hd⟩
  · obtain ⟨t, ht⟩ := hcontract hinput
    cases ht
  · cases hd

/-- **Data is handed over to all scripts or to none.** -/
theorem handedOver_iff : HandedOver limits event prior ↔ Fits limits event prior := by
  constructor
  · intro h
    by_contra hfits
    exact h "" _ (evaluate_of_not_fits hfits)
  · intro hfits source t ht
    cases hparse : parse 0 source.toUTF8 with
    | error e =>
      obtain ⟨t', ht'⟩ := evaluate_of_parse_error hfits hparse
      cases ht.symm.trans ht'
    | ok program =>
      obtain ⟨m, hm⟩ := Option.isSome_iff_exists.1 (ended_isSome hfits hparse)
      rw [evaluate_of_ended hm, decided] at ht
      split at ht
      · cases ht
      · exact decisionOf_ne_binding m t ht

/-! ## The empty step -/

theorem decisionOf_next_ne {next : String} {input : Payload}
    (hd : decisionOf m = .ok (.continue_ next input)) : next ≠ "" := by
  unfold decisionOf at hd
  dsimp only at hd
  obtain ⟨err, -, hd⟩ := Except.bind_eq_ok.1 hd
  split at hd
  · cases hd
  · obtain ⟨n, -, hd⟩ := Except.bind_eq_ok.1 hd
    split at hd
    · cases hd
    · rename_i hne
      obtain ⟨v, -, hd⟩ := Except.bind_eq_ok.1 hd
      obtain ⟨d, -, hd⟩ := Except.bind_eq_ok.1 hd
      cases hd
      exact hne

/-- **No script goes on with the empty step.** -/
theorem evaluate_next_ne {next : String} {input : Payload}
    (hd : evaluate limits event prior source = .ok (.continue_ next input)) : next ≠ "" := by
  cases hbegun : begun limits event prior source with
  | none =>
    obtain ⟨e, he⟩ := evaluate_of_begun_eq_none hbegun
    rw [he] at hd
    cases hd
  | some m =>
    rw [evaluate_of_begun hbegun, decided] at hd
    generalize m.run horizon = last at hd
    split at hd
    · cases hd
    · exact decisionOf_next_ne hd

/-- **No pipeline dispatches the empty step**, whatever its modules answer. -/
theorem dispatches_ne {w : Surroundings} (hw : w.evaluate = evaluate limits) {answers : Answers}
    {event : Event} {reaction : Reaction} {acts : List Act} {p : Pipeline}
    (hruns : Pipeline.Runs w answers (.new event reaction) acts p) {x : String × Payload}
    (hx : x ∈ Pipeline.dispatches acts) : x.1 ≠ "" := by
  have hlinked := (Pipeline.Tracked.runs hruns).linked
  obtain ⟨a, ha, hdispatch⟩ := List.mem_filterMap.1 hx
  obtain ⟨module, action, r, rfl⟩ := Act.eq_of_dispatch? hdispatch
  obtain ⟨i, hi⟩ := List.mem_iff_getElem?.1 ha
  obtain ⟨⟨k, data, prior, script, -, hk⟩, -⟩ := hlinked.before_dispatch hi
  have hd := hlinked.eq_evaluate hk
  rw [hw] at hd
  exact evaluate_next_ne hd.symm

/-- **The contract of a decision.**  Data that cannot be handed to some script is an
    error of its own, whatever the script is.  With other data every script that can
    be compiled is run; one that cannot, and one that raises an error, is an error of
    the script.  One that has run to its end, and has given the globals no metatable,
    decides as the contract prescribes for the values it leaves.  No evaluation goes
    on with the empty step, and no pipeline dispatches it. -/
theorem decides_by_contract (limits : Limits) (event : Payload) (prior : Option Payload)
    (source : String) :
    let decision := evaluate limits event prior source
    let last := ended limits event prior source
    (¬HandedOver limits event prior → ∃ t, decision = .error (.binding t)) ∧
      (HandedOver limits event prior →
        (∀ f, parse 0 source.toUTF8 = .error f → ∃ t, decision = .error (.runtime t)) ∧
        (∀ program, parse 0 source.toUTF8 = .ok program → last.isSome = true) ∧
        (∀ m f, last = some m → m.result? = some (.error f) → ∃ t, decision = .error (.runtime t)) ∧
        (∀ m vs, last = some m → m.result? = some (.ok vs) → m.heap.PlainGlobals →
          Prescribes m.heap (m.heap.global "err") (m.heap.global "nextAction")
            (m.heap.global "result") decision)) ∧
      (∀ next input, decision = .ok (.continue_ next input) → next ≠ "") ∧
      (∀ (w : Surroundings) answers e reaction acts p, w.evaluate = evaluate limits →
        Pipeline.Runs w answers (.new e reaction) acts p →
        ∀ x ∈ Pipeline.dispatches acts, x.1 ≠ "") := by
  intro decision last
  refine ⟨fun hover => ?_, fun hover => ⟨fun f hparse => ?_, fun program hparse => ?_,
    fun m f hm hresult => ?_, fun m vs hm hresult hplain => ?_⟩, fun next input hd => ?_,
    fun w answers e reaction acts p hw hruns x hx => ?_⟩
  · exact ⟨_, evaluate_of_not_fits fun hfits => hover (handedOver_iff.2 hfits)⟩
  · exact evaluate_of_parse_error (handedOver_iff.1 hover) hparse
  · exact ended_isSome (handedOver_iff.1 hover) hparse
  · obtain ⟨t, ht⟩ := decided_of_error hresult
    exact ⟨t, (evaluate_of_ended hm).trans ht⟩
  · rw [show decision = decisionOf m from (evaluate_of_ended hm).trans (decided_of_ok hresult)]
    exact decisionOf_prescribes hplain
  · exact evaluate_next_ne hd
  · exact dispatches_ne hw hruns hx

/-- A source that is no script is an error of the script; a script that reports an
    error, and leaves a number as the next step, is decided by the contract. -/
theorem decides_by_contract_scripts :
    (∃ t, evaluate .standard [] none "if then end" = .error (.runtime t)) ∧
      ∃ m, ended .standard [] none "err = 'late' nextAction = 5" = some m ∧
        Prescribes m.heap (m.heap.global "err") (m.heap.global "nextAction")
          (m.heap.global "result") (evaluate .standard [] none "err = 'late' nextAction = 5") := by
  have hover : HandedOver .standard [] none := by
    rw [handedOver_iff, Fits]
    decide +kernel
  constructor
  · have hparse : (parse 0 "if then end".toUTF8).isOk = false := by decide +kernel
    cases h : parse 0 "if then end".toUTF8 with
    | ok program =>
      rw [h] at hparse
      cases hparse
    | error f => exact ((decides_by_contract .standard [] none _).2.1 hover).1 f h
  · have hended : (ended .standard [] none "err = 'late' nextAction = 5").any (fun m =>
        m.result?.any Except.isOk && (m.heap.table m.heap.globals).meta?.isNone) = true := by
      decide +kernel
    obtain ⟨m, hm, hok⟩ := (Option.any_eq_true _ _).1 hended
    obtain ⟨hresult, hplain⟩ := Bool.and_eq_true_iff.1 hok
    obtain ⟨x, hx, hok⟩ := (Option.any_eq_true _ _).1 hresult
    cases x with
    | error f => cases hok
    | ok vs =>
      exact ⟨m, hm, ((decides_by_contract .standard [] none _).2.1 hover).2.2.2 m vs hm hx
        (Option.isNone_iff_eq_none.1 hplain)⟩

/-- A source that is no script, with less memory than the interpreter needs. -/
theorem not_runtime_of_not_handedOver :
    (parse 0 "if then end".toUTF8).isOk = false ∧
      evaluate ⟨1000000, 1⟩ [] none "if then end" =
        .error (.binding "memory error: not enough memory") := by
  refine ⟨by decide +kernel, evaluate_of_not_fits ?_⟩
  unfold Fits
  decide +kernel

end Reactor.Script
