/-
  The globals of a script.

  * `Heap.PlainGlobals`: the globals have no metatable, so that they are read as
    they are; `Heap.Scoped`: they are a table of names at their place;
    `Scoped.setGlobal`: setting one changes what it holds and no other table;
  * `Shows`: a value shows some JSON, whatever the globals come to hold;
  * `Started`: the heap in which a script starts, and `started_seeded`: the data
    of an event and of the step before is there.
-/
import Reactor.Proofs.Lua.Names
import Reactor.Proofs.Lua.Run
import Reactor.Proofs.Script.Conversion
import Reactor.Proofs.Script.Seeding
import Reactor.Script.Evaluate

namespace Reactor.Lua.Heap

variable {h h' : Heap} {r n : Nat}

theorem table_modify (hr : r < h.tables.size) (f : Table → Table) (n r' : Nat) :
    { h with tables := h.tables.modify r f, used := n }.table r' =
      if r = r' then f (h.table r) else h.table r' := by
  rw [table, table, table, Array.getD_eq_getD_getElem?, Array.getD_eq_getD_getElem?,
    Array.getD_eq_getD_getElem?, Array.getElem?_modify]
  split
  · rename_i heq
    subst heq
    rw [Array.getElem?_eq_getElem hr]
    rfl
  · rfl

/-- Writing under a key counts no more bytes than the table then has. -/
theorem rawSet_eq (hr : r < h.tables.size) (k v : Value) :
    ∃ n ≤ ((h.table r).set k v).bytes, h.rawSet r k v =
      { h with tables := h.tables.modify r fun t => t.set k v, used := h.used + n } := by
  have hafter : { h with tables := h.tables.modify r fun t => t.set k v }.table r =
      (h.table r).set k v := (table_modify hr _ h.used r).trans (if_pos rfl)
  unfold rawSet
  simp only [hafter]
  split
  · exact ⟨_, Nat.sub_le .., rfl⟩
  · exact ⟨0, Nat.zero_le _, rfl⟩

/-- The value of a global. -/
def global (h : Heap) (name : String) : Value := (h.table h.globals).get (.ofString name)

/-- The table of globals has no metatable. -/
def PlainGlobals (h : Heap) : Prop := (h.table h.globals).meta? = none

/-- The globals are a table of at most `n` names, at their place. -/
structure Scoped (h : Heap) (n : Nat) : Prop where
  place : h.globals = globalsPlace
  inside : globalsPlace < h.tables.size
  names : (h.table h.globals).Names n (2 * n)
  valid : h.Valid

/-- Tables stay as they are, but for the globals; others may be added. -/
structure Keeps (h h' : Heap) : Prop where
  size : h.tables.size ≤ h'.tables.size
  table : ∀ r, r ≠ globalsPlace → r < h.tables.size → h'.table r = h.table r

theorem Keeps.refl (h : Heap) : h.Keeps h := ⟨Nat.le_refl _, fun _ _ _ => rfl⟩

theorem Keeps.trans {h₁ h₂ : Heap} (h₁₂ : h.Keeps h₁) (h₂₃ : h₁.Keeps h₂) : h.Keeps h₂ :=
  ⟨Nat.le_trans h₁₂.size h₂₃.size, fun r hr hlt =>
    (h₂₃.table r hr (Nat.lt_of_lt_of_le hlt h₁₂.size)).trans (h₁₂.table r hr hlt)⟩

theorem Grown.keeps (hg : h.Grown h') : h.Keeps h' := ⟨hg.size_le, fun _ _ hlt => hg.table hlt⟩

theorem Grown.globals_eq (hg : h.Grown h') : h'.globals = h.globals := by
  obtain ⟨ts, n, rfl⟩ := hg
  rfl

theorem Grown.limit_eq (hg : h.Grown h') : h'.limit = h.limit := by
  obtain ⟨ts, n, rfl⟩ := hg
  rfl

theorem Grown.global_eq (hg : h.Grown h') (hs : h.Scoped n) (name : String) :
    h'.global name = h.global name := by
  rw [global, global, hg.globals_eq, hg.table (hs.place ▸ hs.inside)]

theorem Scoped.grown (hs : h.Scoped n) (hg : h.Grown h') (hh' : h'.Valid) : h'.Scoped n :=
  ⟨hg.globals_eq.trans hs.place, Nat.lt_of_lt_of_le hs.inside hg.size_le, by
    rw [hg.globals_eq, hg.table (hs.place ▸ hs.inside)]; exact hs.names, hh'⟩

end Reactor.Lua.Heap

namespace Reactor.Script

open Lua

variable {h h' : Heap} {n : Nat} {name : String} {v : Value} {j : Json}

/-- A global has been set, and all but the table of globals is as before. -/
structure GlobalSet (h : Heap) (n : Nat) (name : String) (v : Value) (h' : Heap) : Prop where
  names : h'.Scoped (n + 1)
  keeps : h.Keeps h'
  global : ∀ s, h'.global s = if s = name then v else h.global s
  used : h'.used ≤ h.used + (56 + 48 * (n + 1))
  boxes : h'.boxes = h.boxes
  limit : h'.limit = h.limit

/-- **Setting a global** changes what it holds and no other table. -/
theorem globalSet_setGlobal (hs : h.Scoped n) (name : String) (v : Value) :
    GlobalSet h n name v (setGlobal h name v) := by
  have hr : h.globals < h.tables.size := hs.place ▸ hs.inside
  have hnames : ((h.table h.globals).set (.ofString name) v).Names (n + 1) (2 * (n + 1)) :=
    hs.names.setText name v
  obtain ⟨m, hm, heq⟩ := Heap.rawSet_eq hr (.ofString name) v
  have hbytes := hnames.bytes_le
  have htable (r : Nat) : (setGlobal h name v).table r =
      if h.globals = r then (h.table h.globals).set (.ofString name) v else h.table r := by
    rw [setGlobal, heq]
    exact Heap.table_modify hr _ _ r
  have hglobals : (setGlobal h name v).globals = h.globals := by rw [setGlobal, heq]
  have hsize : (setGlobal h name v).tables.size = h.tables.size := by
    rw [setGlobal, heq]
    exact Array.size_modify
  refine ⟨⟨hglobals.trans hs.place, hsize ▸ hs.inside, ?_, fun r => ?_⟩, ⟨Nat.le_of_eq hsize.symm,
    fun r hne _ => ?_⟩, fun s => ?_, ?_, ?_, ?_⟩
  · rw [hglobals, htable, if_pos rfl]
    exact hnames
  · rw [htable]
    split
    · exact (hs.valid _).setText name v
    · exact hs.valid r
  · rw [htable, if_neg (hs.place ▸ hne.symm)]
  · rw [Heap.global, hglobals, htable, if_pos rfl]
    exact ((hs.valid h.globals).get_setText name v _).trans (by simp only [Value.ofString_inj]; rfl)
  · rw [setGlobal, heq]
    dsimp only
    omega
  · rw [setGlobal, heq]
  · rw [setGlobal, heq]

/-- A value shows some JSON, whatever the globals come to hold and whatever tables
    are added. -/
def Shows (h : Heap) (v : Value) (j : Json) : Prop := ∀ k : Heap, h.Keeps k → Depicts k v j

theorem Shows.mono (hk : h.Keeps h') (hv : Shows h v j) : Shows h' v j := fun k hk' =>
  hv k (hk.trans hk')

theorem Seeded.shows (hv : Seeded h j v h') (hs : h.Scoped n) : Shows h' v j.passed := fun k hk =>
  hv.depicts k fun r hlow hr => hk.table r (Nat.ne_of_gt (Nat.lt_of_lt_of_le hs.inside hlow)) hr

/-! ## The heap in which a script starts -/

/-- How many bytes are used does not matter. -/
theorem scoped_used (hs : h.Scoped n) (u : Nat) : ({ h with used := u } : Heap).Scoped n :=
  ⟨hs.place, hs.inside, hs.names, hs.valid⟩

theorem scoped_standard (limit : Nat) : (Heap.standard limit).Scoped 28 := by
  have hfirst (a b c d e f : Table) : #[a, b, c, d, e, f].getD 0 .empty = a := rfl
  have hglobals : (Heap.standard limit).table (Heap.standard limit).globals = standardGlobals :=
    hfirst ..
  refine ⟨rfl, ?_, ?_, Heap.valid_standard limit⟩
  · unfold Heap.standard
    exact Nat.zero_lt_succ 5
  · rw [hglobals]
    exact Table.names_standardGlobals

/-- The data of an event and of the step before is in globals, and no error. -/
structure Started (h : Heap) (event : Payload) (prior : Option Payload) : Prop where
  names : h.Scoped 32
  event : Shows h (h.global "event") (Json.obj event).passed
  prior : ∀ p, prior = some p → Shows h (h.global "actionData") (Json.obj p).passed
  err : h.global "err" = .ofString ""

/-- The output of the step before, if there was one, is made into a value. -/
theorem seeded_seedPrior (hs : h.Scoped n) {prior : Option Payload}
    (hprior : ∀ p, prior = some p → (Json.obj p).Proper) :
    h.Grown (seedPrior h prior).2 ∧ (seedPrior h prior).2.Valid ∧
      ∀ p, prior = some p →
        Shows (seedPrior h prior).2 (seedPrior h prior).1 (Json.obj p).passed := by
  cases prior with
  | none => exact ⟨.refl h, hs.valid, nofun⟩
  | some p =>
    have hp := seeded_seed (hprior p rfl) h
    refine ⟨hp.grown, hp.valid hs.valid, fun q hq => ?_⟩
    cases hq
    exact hp.shows hs

/-- **A script starts** with the data in its globals. -/
theorem started_seeded (l : Limits) {event : Payload} {prior : Option Payload}
    (hevent : (Json.obj event).Proper) (hprior : ∀ p, prior = some p → (Json.obj p).Proper) :
    Started (seeded l event prior) event prior ∧ (seeded l event prior).limit = l.room := by
  have h₀ : ((Heap.standard l.room).charge (textBytes (dataTexts event prior))).Scoped 28 :=
    scoped_used (scoped_standard l.room) _
  have hseed := seeded_seed hevent
    ((Heap.standard l.room).charge (textBytes (dataTexts event prior)))
  generalize hv : seed ((Heap.standard l.room).charge (textBytes (dataTexts event prior)))
    (.obj event) = vh at hseed
  obtain ⟨v, h₁⟩ := vh
  dsimp only at hseed
  have hs₁ := h₀.grown hseed.grown (hseed.valid h₀.valid)
  have h₂ := globalSet_setGlobal hs₁ "event" v
  obtain ⟨hgrown, hvalid, hshows⟩ := seeded_seedPrior h₂.names hprior
  generalize hw : seedPrior (setGlobal h₁ "event" v) prior = wh at hgrown hvalid hshows
  obtain ⟨w, h₃⟩ := wh
  dsimp only at hgrown hvalid hshows
  have hs₃ := h₂.names.grown hgrown hvalid
  have h₄ := globalSet_setGlobal hs₃ "actionData" w
  have h₅ := globalSet_setGlobal h₄.names "nextAction" (.ofString "")
  have h₆ := globalSet_setGlobal h₅.names "err" (.ofString "")
  have hkeeps := (h₄.keeps.trans h₅.keeps).trans h₆.keeps
  have heq : seeded l event prior =
      setGlobal (setGlobal (setGlobal h₃ "actionData" w) "nextAction" (.ofString "")) "err"
        (.ofString "") := by
    simp only [seeded, hv, hw]
  rw [heq]
  refine ⟨⟨h₆.names, ?_, fun p hp => ?_, ?_⟩, ?_⟩
  · rw [h₆.global, if_neg (by decide), h₅.global, if_neg (by decide), h₄.global, if_neg (by decide),
      hgrown.global_eq h₂.names, h₂.global, if_pos rfl]
    exact (hseed.shows h₀).mono ((h₂.keeps.trans hgrown.keeps).trans hkeeps)
  · rw [h₆.global, if_neg (by decide), h₅.global, if_neg (by decide), h₄.global, if_pos rfl]
    exact (hshows p hp).mono hkeeps
  · rw [h₆.global, if_pos rfl]
  · rw [h₆.limit, h₅.limit, h₄.limit, hgrown.limit_eq, h₂.limit, hseed.grown.limit_eq]
    rfl

/-! ## Reading a decision -/

/-- A global that no metamethod answers for is read as it is. -/
theorem readGlobal_eq {m : Machine} (hplain : m.heap.PlainGlobals) (name : String) :
    ∃ m', readGlobal m name = (m', .ok (m.heap.global name)) ∧ m'.heap = m.heap := by
  have htask : (do return #[← Operation.index (.table m.heap.globals) (.ofString name) none] :
      Lua.Task (Array Value)) m.heap = .done #[m.heap.global name] m.heap :=
    Lua.Task.bind_of_done (Operation.index_eq hplain name)
  let m' : Machine := ⟨m.heap, .deliver #[m.heap.global name], [], 0, 0, m.left, m.budget⟩
  have hgoes : goOn m (do
      return #[← Operation.index (.table m.heap.globals) (.ofString name) none]) = m' := by
    rw [goOn, Machine.start_of_done htask]
    exact Machine.run_of_isDone (m := m') rfl horizon
  have houtcome : outcome m' = .ok #[m.heap.global name] := rfl
  refine ⟨m', ?_, rfl⟩
  unfold readGlobal
  simp only [hgoes, houtcome]
  rfl

theorem readText_eq {m : Machine} (hplain : m.heap.PlainGlobals) {name text : String}
    (hv : m.heap.global name = .ofString text) :
    ∃ m', readText m name = (m', .ok text) ∧ m'.heap = m.heap := by
  obtain ⟨m', hread, hheap⟩ := readGlobal_eq hplain name
  refine ⟨m', ?_, hheap⟩
  rw [readText, hread, hv]
  simp only [Value.ofString, Text.Utf8.decode_eq_ok.2 rfl]

/-- A machine that has read a next step goes on with what the result is as its input. -/
theorem decisionOf_of_next_ne {m err next result : Machine} {s : String} {r : Value}
    (herr : readText m "err" = (err, .ok "")) (hnext : readText err "nextAction" = (next, .ok s))
    (hne : s ≠ "") (hresult : readGlobal next "result" = (result, .ok r)) : decisionOf m =
      ((resultInput result.heap s r).mapError ContractFault.toError).map (Decision.continue_ s) := by
  have hok {α : Type} (a : α) : (Except.ok a).mapError ContractFault.toError = .ok a := rfl
  unfold decisionOf
  simp only [herr, hnext, hresult, hok, Except.ok_bind, ne_eq, not_true_eq_false, if_false,
    if_neg hne]
  cases resultInput result.heap s r <;> rfl

/-- **The decision** to go on with a step is read off the globals. -/
theorem decisionOf_eq {m : Machine} (hs : m.heap.Scoped n) {next : String}
    (herr : m.heap.global "err" = .ofString "")
    (hnext : m.heap.global "nextAction" = .ofString next) (hne : next ≠ "") : decisionOf m =
      ((resultInput m.heap next (m.heap.global "result")).mapError ContractFault.toError).map
        (Decision.continue_ next) := by
  have hplain : m.heap.PlainGlobals := hs.names.plain
  obtain ⟨m₁, hread₁, hheap₁⟩ := readText_eq hplain herr
  obtain ⟨m₂, hread₂, hheap₂⟩ := readText_eq (hheap₁ ▸ hplain) (hheap₁ ▸ hnext)
  rw [hheap₁] at hheap₂
  obtain ⟨m₃, hread₃, hheap₃⟩ := readGlobal_eq (hheap₂ ▸ hplain) "result"
  rw [decisionOf_of_next_ne hread₁ hread₂ hne hread₃, hheap₃, hheap₂]

end Reactor.Script
