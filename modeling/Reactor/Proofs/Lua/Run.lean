/-
  Runs of a machine.

  * `Settles`: after so many steps a machine has ended as it should, however long
    it is run;
  * `settles_instruction`: a function runs its next instruction, unless the
    memory or the instructions are used up;
  * `start_main`: a machine that starts on the main function of a script.
-/
import Reactor.Lua.Machine

namespace Reactor.Lua

/-- A computation goes on after one that is done. -/
theorem Task.bind_of_done {α β : Type} {t : Task α} {f : α → Task β} {h h' : Heap} {a : α}
    (ht : t h = .done a h') : (t >>= f) h = f a h' := by
  change Task.bind t f h = _
  rw [Task.bind, ht]

/-- A field of a table without metatable is read. -/
theorem Operation.index_eq {h : Heap} {r : Nat} (hplain : (h.table r).meta? = none) (s : String) :
    index (.table r) (.ofString s) none h = .done ((h.table r).get (.ofString s)) h := by
  obtain ⟨fuel, hfuel⟩ : ∃ fuel, maxChain = fuel + 1 := ⟨1999, rfl⟩
  have hread : Task.read (fun h => h.rawGet r (.ofString s)) h =
    .done ((h.table r).get (.ofString s)) h := rfl
  rw [index, hfuel, indexFrom, Task.bind_of_done hread]
  cases hx : (h.table r).get (.ofString s) with
  | nil =>
    have hmeta : Task.read (fun h => (h.table r).meta?) h = .done none h := by
      rw [Task.read, hplain]
    exact Task.bind_of_done hmeta
  | _ => rfl

namespace Machine

variable {m : Machine} {P : Machine → Prop} {k k' : Nat}

/-! ## Steps -/

/-- A machine ends as it should within so many steps. -/
def Settles (k : Nat) (m : Machine) (P : Machine → Prop) : Prop := ∀ n, k ≤ n → P (m.run n)

theorem run_of_isDone (h : m.isDone = true) : ∀ n, m.run n = m
  | 0 => rfl
  | n + 1 => by rw [run, if_pos h]

theorem Settles.of_isDone (h : m.isDone = true) (hP : P m) : Settles k m P := fun n _ => by
  rwa [run_of_isDone h]

theorem Settles.mono (hk : k ≤ k') (h : Settles k m P) : Settles k' m P := fun n hn =>
  h n (Nat.le_trans hk hn)

theorem Settles.step (hgoes : m.isDone = false) (h : Settles k m.step P) : Settles (k + 1) m P := by
  intro n hn
  obtain ⟨n, rfl⟩ := Nat.exists_eq_succ_of_ne_zero (Nat.ne_of_gt (Nat.lt_of_lt_of_le k.succ_pos hn))
  rw [run, if_neg (by rw [hgoes]; exact Bool.false_ne_true)]
  exact h n (Nat.le_of_succ_le_succ hn)

/-! ## The main function of a script -/

/-- Hands on what a call has given. -/
def handOn : Array Value → Heap → Outcome (Array Value) := fun vs h => .done vs h

/-- A machine that runs the main function of a script. -/
def running (h : Heap) (f : LuaFrame) (left budget : Nat) : Machine :=
  ⟨h, .run f, [.task true handOn], 1, 0, left, budget⟩

/-- A machine that executes an instruction of the main function. -/
def executing (h : Heap) (left budget : Nat) : Machine :=
  ⟨h, .deliver #[], [.task true handOn], 1, 0, left, budget⟩

variable {h : Heap} {f : LuaFrame} {i : Instr} {left budget : Nat}

/-- A machine has ended with a fault. -/
def Failed (m : Machine) (e : Fault) : Prop := m.result? = some (.error e)

/-- A fault that nothing catches ends the machine. -/
theorem settles_unwind (hpending : f.pending = []) {e : Fault} {d s : Nat}
    (hP : ∀ m, Failed m e → P m) :
    Settles 2 ⟨h, .unwind e, [.lua f, .task true handOn], d, s, left, budget⟩ P := by
  refine .step rfl (.step ?_ (.of_isDone ?_ (hP _ ?_)))
  · simp [step, isOverLimit, hpending, isDone]
  · simp [step, isOverLimit, hpending, isDone]
  · simp [step, isOverLimit, hpending, Failed, result?, isDone]

/-- The host has room for a call. -/
theorem callAbove_of_lt (hdepth : m.depth + 1 < maxHostCalls) (wait : Frame)
    (call : Machine → Machine) : callAbove m wait call = call
      { m with control := .deliver #[], stack := wait :: m.stack, depth := m.depth + 1 } := by
  have hlt : m.depth + 1 < maxHandlerCalls := Nat.lt_trans hdepth (by decide)
  unfold callAbove
  dsimp only
  rw [if_neg (Nat.ne_of_lt hdepth), if_neg (Nat.not_le.2 hlt)]

/-- The host leaves its own faults as they are. -/
theorem callValue_traceback (m : Machine) (text : String) :
    callValue m maxDirect (.native .traceback) #[.failure text] none =
      { m with control := .deliver #[.failure text] } := by
  rw [maxDirect, callValue]
  rfl

/-- The fault of the budget, of which only the host is told, ends the machine. -/
theorem settles_throw (hpending : f.pending = []) {text : String} {s : Nat}
    (hP : ∀ m, Failed m (.value (.failure text)) → P m) :
    Settles 4 ⟨h, .throw .budget (.failure text), [.lua f, .task true handOn], 1, s, left,
      budget⟩ P := by
  have htold : step ⟨h, .throw .budget (.failure text), [.lua f, .task true handOn], 1, s, left,
      budget⟩ = ⟨h, .deliver #[.failure text], [.handling .budget, .lua f, .task true handOn], 2,
        f.base + f.regs.size, left, budget⟩ := by
    rw [step, if_neg (by simp [isOverLimit])]
    dsimp only [tell, handlerOf, Handler.function?]
    rw [callAbove_of_lt (show 1 + 1 < maxHostCalls by decide), callValue_traceback]
    rfl
  refine .step rfl ?_
  rw [htold]
  exact .step rfl (settles_unwind hpending hP)

theorem settles_advance (hi : f.proto.code[f.pc]? = some i) (hpending : f.pending = [])
    (hfits : h.used ≤ h.limit)
    (hbudget : left ≤ 1 → ∀ m, Failed m (.value (.failure (budgetMessage budget))) → P m)
    (hnext : 1 < left → Settles k (execute (executing h (left - 1) budget)
      { f with pc := f.pc + 1 } i) P) (hk : 4 ≤ k) :
    Settles (k + 1) (running h f left budget) P := by
  have hover : isOverLimit (running h f left budget) = false := by
    simpa [running, isOverLimit] using hfits
  have hstep : step (running h f left budget) =
      advance (executing h left budget) f := by
    rw [step, hover]
    rfl
  refine .step rfl ?_
  rw [hstep, advance, hi]
  dsimp only
  split
  · rename_i hleft
    exact hnext hleft
  · rename_i hleft
    exact (settles_throw (f := { f with pc := f.pc + 1 }) hpending
      (hbudget (Nat.le_of_not_lt hleft))).mono hk

/-- **A function runs its next instruction**, after the live data has been counted
    anew if need be, unless the memory or the instructions are used up. -/
theorem settles_instruction (hi : f.proto.code[f.pc]? = some i) (hpending : f.pending = [])
    (hmemory : h.limit < h.used → ∀ m, Failed m .memory → P m)
    (hbudget : left ≤ 1 → ∀ m, Failed m (.value (.failure (budgetMessage budget))) → P m)
    (hnext : ∀ u, (h.used ≤ h.limit → u = h.used) → 1 < left →
      Settles k (execute (executing { h with used := u } (left - 1) budget)
        { f with pc := f.pc + 1 } i) P) (hk : 4 ≤ k) :
    Settles (k + 2) (running h f left budget) P := by
  by_cases hfits : h.used ≤ h.limit
  · exact (settles_advance hi hpending hfits hbudget (hnext h.used fun _ => rfl) hk).mono
      (Nat.le_succ _)
  · have hover : isOverLimit (running h f left budget) = true := by
      simpa [running, isOverLimit] using hfits
    refine .step rfl ?_
    rw [step, hover, if_pos rfl, collect]
    dsimp only
    generalize liveBytes _ = live
    split
    · exact (settles_unwind hpending (hmemory (Nat.lt_of_not_le hfits))).mono (by omega)
    · rename_i hlive
      refine settles_advance (h := { h with used := live }) hi hpending ?_ hbudget
        (hnext live fun h => absurd h hfits) hk
      have hlive : ¬live + stackBytes _ + h.limit / 128 > h.limit := hlive
      dsimp only
      omega

/-! ## Instructions -/

variable {object key value : Operand} {hint : Option Hint} {r dst : Nat} {s : String}

/-- A field of a table without metatable is written. -/
theorem execute_setIndex (hobject : read h f object = .table r) (hkey : read h f key = .ofString s)
    (hplain : (h.table r).meta? = none) :
    execute (executing h left budget) f (.setIndex object key value hint) =
      running (h.rawSet r (.ofString s) (read h f value)) f left budget := by
  have htarget : plainTarget? h (.table r) = some r := by
    rw [plainTarget?, hplain]
    rfl
  simp only [execute, executing, hobject, hkey, htarget, Value.ofString, Value.key?]
  rfl

/-- A field of a table without metatable is read. -/
theorem execute_index (hobject : read h f object = .table r) (hkey : read h f key = .ofString s)
    (hplain : (h.table r).meta? = none) :
    execute (executing h left budget) f (.index dst object key hint) =
      running h { f with regs := f.regs.setIfInBounds dst ((h.table r).get (.ofString s)) } left
        budget := by
  have hindex : plainIndex? h (.table r) (.ofString s) = some ((h.table r).get (.ofString s)) := by
    simp only [plainIndex?, hplain, Value.ofString, Value.key?]
    simp
  simp only [execute, executing, hobject, hkey, hindex]
  rfl

/-- The main function ends. -/
theorem settles_ret (hpending : f.pending = [])
    (hP : ∀ m, (∃ vs, m.result? = some (.ok vs)) → m.heap = h → P m) :
    Settles 1 (execute (executing h left budget) f (.ret 0 0 false)) P := by
  have hexecute : execute (executing h left budget) f (.ret 0 0 false) =
      leaveWith (executing h left budget) f (listed f 0 0 false) := by
    simp only [execute, hpending]
  rw [hexecute]
  exact .step rfl (.of_isDone rfl (hP _ ⟨_, rfl⟩ rfl))

/-! ## Start -/

/-- A machine that starts on a computation without calls has ended. -/
theorem start_of_done {t : Task (Array Value)} {vs : Array Value} (ht : t h = .done vs h) :
    Machine.start h budget t = ⟨h, .deliver vs, [], 0, 0, budget, budget⟩ := by
  unfold start resumeWith
  simp only [ht, Next.ofOutcome]

/-- **A machine that starts on a function** of the script, with one variable around
    it, runs it. -/
theorem start_main {proto : Proto} {v : Value} (hsize : proto.size ≤ maxSlots) :
    Machine.start h budget (do
      let f ← Library.instantiate proto v
      Task.call f #[] none) =
      running ((h.allocBox v).2.allocClosure ⟨proto, #[h.boxes.size]⟩).2
        (enter ⟨proto, #[h.boxes.size]⟩ #[] 0) budget budget := by
  generalize hfinal : ((h.allocBox v).2.allocClosure ⟨proto, #[h.boxes.size]⟩).2 = h'
  have htask : (do
      let f ← Library.instantiate proto v
      Task.call f #[] none : Task (Array Value)) h =
        .calling (.closure h.closures.size) #[] none h' handOn := hfinal ▸ rfl
  have hclosure : h'.closures.getD h.closures.size default = ⟨proto, #[h.boxes.size]⟩ := by
    rw [← hfinal, Array.getD_eq_getD_getElem?]
    exact congrArg (Option.getD · default) Array.getElem?_push_size
  have hcallee : callee h' 100 (.closure h.closures.size) #[] =
      .ok (.closure h.closures.size, #[]) := rfl
  have hslots : 0 + proto.size ≤ maxSlots := by rwa [Nat.zero_add]
  unfold start resumeWith
  simp only [htask, Next.ofOutcome]
  rw [callAbove_of_lt (show 0 + 1 < maxHostCalls by decide), maxDirect, callValue]
  simp only [hcallee, hclosure, callClosure, hslots, true_or, if_true]
  rfl

end Machine

end Reactor.Lua
