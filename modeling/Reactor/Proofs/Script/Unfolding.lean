/-
  Values of a heap as trees.

  A table of a heap may be reached in many ways, and may hold itself.  Its
  unfolding is the tree of all that keys lead to from it.

  * `Heap.Leads`: keys lead from a value to a value; `SameTree`: two values have
    the same unfolding;
  * `Convertible`: an unfolding that is not too deep and has only such tables and
    leaves as data has; `convertible_table_succ` goes down by one table;
  * `Depicts`: some JSON is the tree of a value; `Depicts.unique`: there is only
    one; `Depicts.sameTree`: nothing of the unfolding is lost.
-/
import Reactor.Proofs.Fields
import Reactor.Proofs.Lua.Heap
import Reactor.Script.Binding

namespace Reactor.Lua

namespace Table

/-- All keys of a table are texts. -/
def Named (t : Table) : Prop := ∀ k, t.get k ≠ .nil → ∃ s, k = .ofString s

/-- The keys of a table are the numbers from one to `n`. -/
def Listed (t : Table) (n : Nat) : Prop :=
  ∀ k, t.get k ≠ .nil ↔ ∃ i : Int64, k = .int i ∧ 1 ≤ i.toInt ∧ i.toInt ≤ n

variable {t : Table} {m n i : Nat} {k : Value}

/-- A list is not too long for its numbers. -/
theorem Listed.lt (ht : t.Listed n) (hall : ∀ i < n, t.get (.int (.ofNat (i + 1))) ≠ .nil) :
    n < Nat.pow 2 63 := by
  by_contra hle
  have hlast : Nat.pow 2 63 - 1 < n := Nat.lt_of_lt_of_le (by decide) (Nat.le_of_not_lt hle)
  obtain ⟨i, hi, hpos, -⟩ := (ht _).1 (hall _ hlast)
  cases hi
  exact absurd hpos (by decide)

theorem Listed.get_ne_nil (ht : t.Listed n) (hn : n < Nat.pow 2 63) (hi : i < n) :
    t.get (.int (.ofNat (i + 1))) ≠ .nil := by
  have htoInt : (Int64.ofNat (i + 1)).toInt = (i + 1 : Nat) := toInt_ofNat (by omega)
  exact (ht _).2 ⟨_, rfl, by rw [htoInt]; omega, by rw [htoInt]; omega⟩

/-- Each key of a list is a number of one of its places. -/
theorem Listed.exists_place (ht : t.Listed n) (hn : n < Nat.pow 2 63) (hk : t.get k ≠ .nil) :
    ∃ i < n, k = .int (.ofNat (i + 1)) := by
  obtain ⟨i, rfl, hpos, hle⟩ := (ht k).1 hk
  refine ⟨i.toInt.toNat - 1, by omega, congrArg _ (Int64.toInt_inj.1 ?_)⟩
  rw [toInt_ofNat (by omega)]
  omega

/-- No number is above those of 64 bits. -/
theorem Listed.exists_lt (ht : t.Listed n) : ∃ m, m < Nat.pow 2 63 ∧ t.Listed m := by
  have hpow := pow_63
  refine ⟨min n (Nat.pow 2 63 - 1), by omega, fun k => ?_⟩
  rw [ht k]
  refine exists_congr fun i => and_congr_right fun _ => and_congr_right fun _ => ?_
  have := i.toInt_lt
  omega

theorem Listed.le (hm : t.Listed m) (hn : t.Listed n) (hm' : m < Nat.pow 2 63) : m ≤ n := by
  by_contra hlt
  obtain ⟨i, hi, -, hle⟩ := (hn _).1 (hm.get_ne_nil hm' (Nat.lt_of_not_le hlt))
  rw [← Value.int.inj hi, toInt_ofNat (by omega)] at hle
  omega

end Table

namespace Heap

/-- Keys lead from a value to a value. -/
inductive Leads (h : Heap) : Value → List Value → Value → Prop
  | here (v : Value) : Leads h v [] v
  | field {r : Nat} {k w : Value} {path : List Value} :
      (h.table r).get k ≠ .nil → Leads h ((h.table r).get k) path w →
      Leads h (.table r) (k :: path) w

end Heap

end Reactor.Lua

namespace Reactor.Script

open Lua

/-! ## What can be converted -/

/-- The data of a value that is no table. -/
inductive Plain : Value → Json → Prop
  | bool (b : Bool) : Plain (.bool b) (.bool b)
  | int (i : Int64) : Plain (.int i) (.int i.toInt)
  | num (x : Float) : Decimal.isFinite x = true → Plain (.num x) (.float x)
  | str (s : String) : Plain (.ofString s) (.str s)
  | null : Plain .null .null

/-- A value whose tables nest at most `d` deep; each of them has only texts or
    the numbers from one on as keys, and all other values in them are data. -/
structure Convertible (h : Heap) (d : Nat) (v : Value) : Prop where
  shallow : ∀ path r, h.Leads v path (.table r) → path.length < d
  tables : ∀ path r, h.Leads v path (.table r) → (h.table r).Named ∨ ∃ n, (h.table r).Listed n
  leaves : ∀ path w, h.Leads v path w → (∃ r, w = .table r) ∨ ∃ j, Plain w j

variable {h : Heap} {d r : Nat} {v w : Value} {j : Json}

theorem Plain.not_table : ¬Plain (.table r) j := nofun

/-- A plain value leads nowhere. -/
theorem Plain.leads (hv : Plain v j) {path : List Value} (hl : h.Leads v path w) :
    path = [] ∧ w = v := by
  cases hl with
  | here => exact ⟨rfl, rfl⟩
  | field => exact absurd hv Plain.not_table

theorem Plain.convertible (hv : Plain v j) (h : Heap) (d : Nat) : Convertible h d v := by
  refine ⟨fun path r hl => ?_, fun path r hl => ?_, fun path w hl => .inr ⟨j, (hv.leads hl).2 ▸ hv⟩⟩
  · exact absurd ((hv.leads hl).2 ▸ hv) Plain.not_table
  · exact absurd ((hv.leads hl).2 ▸ hv) Plain.not_table

theorem not_convertible_zero (h : Heap) (r : Nat) : ¬Convertible h 0 (.table r) := fun hc =>
  Nat.not_lt_zero _ (hc.shallow [] r (.here _))

/-- **A table can be converted** if its keys are as they should be and what it
    holds can be converted, one table less deep. -/
theorem convertible_table_succ : Convertible h (d + 1) (.table r) ↔
    ((h.table r).Named ∨ ∃ n, (h.table r).Listed n) ∧
      ∀ k, (h.table r).get k ≠ .nil → Convertible h d ((h.table r).get k) := by
  constructor
  · intro hc
    refine ⟨hc.tables [] r (.here _), fun k hk => ⟨fun path r' hl => ?_, fun path r' hl => ?_,
      fun path w hl => ?_⟩⟩
    · exact Nat.lt_of_succ_lt_succ (hc.shallow (k :: path) r' (.field hk hl))
    · exact hc.tables (k :: path) r' (.field hk hl)
    · exact hc.leaves (k :: path) w (.field hk hl)
  · rintro ⟨hkeys, hall⟩
    refine ⟨fun path r' hl => ?_, fun path r' hl => ?_, fun path w hl => ?_⟩
    · cases hl with
      | here => exact Nat.succ_pos d
      | field hk hl => exact Nat.succ_lt_succ ((hall _ hk).shallow _ r' hl)
    · cases hl with
      | here => exact hkeys
      | field hk hl => exact (hall _ hk).tables _ r' hl
    · cases hl with
      | here => exact .inl ⟨r, rfl⟩
      | field hk hl => exact (hall _ hk).leaves _ w hl

/-! ## Trees as JSON -/

/-- Some JSON is the tree of a value: an object of a table whose keys are its
    names, or a list of a table whose keys are the numbers from one on. -/
inductive Depicts (h : Heap) : Value → Json → Prop
  | plain {v : Value} {j : Json} : Plain v j → Depicts h v j
  | obj {r : Nat} {fields : Fields Json} :
      fields.Sorted →
      (∀ k, (h.table r).get k ≠ .nil → ∃ s j, k = .ofString s ∧ (s, j) ∈ fields) →
      (∀ s j, (s, j) ∈ fields → Depicts h ((h.table r).get (.ofString s)) j) →
      Depicts h (.table r) (.obj fields)
  | arr {r : Nat} {items : List Json} :
      items ≠ [] → (h.table r).Listed items.length →
      (∀ i (hi : i < items.length), Depicts h ((h.table r).get (.int (.ofNat (i + 1)))) items[i]) →
      Depicts h (.table r) (.arr items)

theorem Depicts.ne_nil (hj : Depicts h v j) : v ≠ .nil := by
  rintro rfl
  cases hj with
  | plain hp => cases hp

theorem Depicts.length_lt {items : List Json} (hn : (h.table r).Listed items.length)
    (hall : ∀ i (hi : i < items.length),
      Depicts h ((h.table r).get (.int (.ofNat (i + 1)))) items[i]) : items.length < Nat.pow 2 63 :=
  hn.lt fun i hi => (hall i hi).ne_nil

/-- A list is no object. -/
theorem not_listed_of_names {fields : Fields Json} {n : Nat} (hn : n ≠ 0) (hlt : n < Nat.pow 2 63)
    (hkeys : ∀ k, (h.table r).get k ≠ .nil → ∃ s j, k = .ofString s ∧ (s, j) ∈ fields) :
    ¬(h.table r).Listed n := fun hlisted => by
  obtain ⟨s, j, hk, -⟩ := hkeys _ (hlisted.get_ne_nil hlt (Nat.pos_of_ne_zero hn))
  cases hk

theorem Plain.unique {j' : Json} (hj : Plain v j) (hj' : Plain v j') : j = j' := by
  cases hj with
  | str s =>
    generalize hv : Value.ofString s = v at hj'
    cases hj' with
    | str s' => rw [Value.ofString_inj.1 hv]
    | _ => cases hv
  | _ => cases hj'; rfl

theorem Plain.injective (hv : Plain v j) (hw : Plain w j) : v = w := by
  cases hv with
  | int i =>
    generalize hj : Json.int i.toInt = j at hw
    cases hw with
    | int i' => rw [Int64.toInt_inj.1 (Json.int.inj hj)]
    | _ => cases hj
  | _ => cases hw; rfl

/-- **A value has one tree.** -/
theorem Depicts.unique {j' : Json} (hj : Depicts h v j) (hj' : Depicts h v j') : j = j' := by
  induction hj generalizing j' with
  | plain hp =>
    cases hj' with
    | plain hp' => exact hp.unique hp'
    | obj => exact absurd hp Plain.not_table
    | arr => exact absurd hp Plain.not_table
  | @obj r fields hsorted hkeys hall ih =>
    cases hj' with
    | plain hp => exact absurd hp Plain.not_table
    | @obj _ fields' hsorted' hkeys' hall' =>
      refine congrArg _ (hsorted.ext_mem hsorted' fun s j => ⟨fun hmem => ?_, fun hmem' => ?_⟩)
      · obtain ⟨s', j', hs, hmem'⟩ := hkeys' _ (hall s j hmem).ne_nil
        rw [Value.ofString_inj] at hs
        subst hs
        rwa [ih s j hmem (hall' s j' hmem')]
      · obtain ⟨s', j', hs, hmem⟩ := hkeys _ (hall' s j hmem').ne_nil
        rw [Value.ofString_inj] at hs
        subst hs
        rwa [← ih s j' hmem (hall' s j hmem')]
    | arr hne hlisted hall' =>
      exact absurd hlisted (not_listed_of_names (fun h0 => hne (List.eq_nil_of_length_eq_zero h0))
        (Depicts.length_lt hlisted hall') hkeys)
  | @arr r items hne hlisted hall ih =>
    have hlt := Depicts.length_lt hlisted hall
    cases hj' with
    | plain hp => exact absurd hp Plain.not_table
    | obj _ hkeys =>
      exact absurd hlisted (not_listed_of_names (fun h0 => hne (List.eq_nil_of_length_eq_zero h0))
        hlt hkeys)
    | @arr _ items' _ hlisted' hall' =>
      have hlt' := Depicts.length_lt hlisted' hall'
      refine congrArg _ (List.ext_getElem (Nat.le_antisymm (hlisted.le hlisted' hlt)
        (hlisted'.le hlisted hlt')) fun i hi hi' => ih i hi (hall' i hi'))

/-- Where keys lead from a value, there is a part of its tree. -/
theorem Depicts.leads {path : List Value} (hl : h.Leads v path w) (hj : Depicts h v j)
    {h' : Heap} {v' : Value} (hj' : Depicts h' v' j) :
    ∃ w' j', h'.Leads v' path w' ∧ Depicts h w j' ∧ Depicts h' w' j' := by
  induction hl generalizing v' j with
  | here v => exact ⟨v', j, .here _, hj, hj'⟩
  | @field r k w path hk hl ih =>
    cases hj with
    | plain hp => exact absurd hp Plain.not_table
    | obj hsorted hkeys hall =>
      obtain ⟨s, j', rfl, hmem⟩ := hkeys k hk
      cases hj' with
      | plain hp => cases hp
      | @obj r' _ hsorted' hkeys' hall' =>
        obtain ⟨w', j'', hl', hw, hw'⟩ := ih (hall s j' hmem) (hall' s j' hmem)
        exact ⟨w', j'', .field (hall' s j' hmem).ne_nil hl', hw, hw'⟩
    | @arr _ items hne hlisted hall =>
      obtain ⟨i, hi, rfl⟩ := hlisted.exists_place (Depicts.length_lt hlisted hall) hk
      cases hj' with
      | plain hp => cases hp
      | @arr r' _ hne' hlisted' hall' =>
        obtain ⟨w', j'', hl', hw, hw'⟩ := ih (hall i hi) (hall' i hi)
        exact ⟨w', j'', .field (hall' i hi).ne_nil hl', hw, hw'⟩

/-- What has a tree is a table or plain, and its tree tells which. -/
theorem Depicts.alike {h' : Heap} (hj : Depicts h v j) (hj' : Depicts h' w j) :
    ((∃ r, v = .table r) ∧ ∃ r, w = .table r) ∨ ((∀ r, v ≠ .table r) ∧ v = w) := by
  cases hj with
  | plain hp =>
    cases hj' with
    | plain hp' => exact .inr ⟨fun r hr => Plain.not_table (hr ▸ hp), hp.injective hp'⟩
    | obj => cases hp
    | arr => cases hp
  | obj =>
    cases hj' with
    | plain hp' => cases hp'
    | obj => exact .inl ⟨⟨_, rfl⟩, ⟨_, rfl⟩⟩
  | arr =>
    cases hj' with
    | plain hp' => cases hp'
    | arr => exact .inl ⟨⟨_, rfl⟩, ⟨_, rfl⟩⟩

/-- Two values of heaps have the same unfolding: the same keys lead to tables,
    and to the same plain values. -/
def SameTree (h : Heap) (v : Value) (h' : Heap) (v' : Value) : Prop :=
  ∀ path, ((∃ r, h.Leads v path (.table r)) ↔ ∃ r, h'.Leads v' path (.table r)) ∧
    ∀ w, (∀ r, w ≠ .table r) → (h.Leads v path w ↔ h'.Leads v' path w)

/-- **Nothing of an unfolding is lost.** -/
theorem Depicts.sameTree {h' : Heap} {v' : Value} (hj : Depicts h v j) (hj' : Depicts h' v' j) :
    SameTree h v h' v' := by
  -- one direction; the other is the same with the heaps exchanged
  have hone {h h' : Heap} {v v' : Value} (hj : Depicts h v j) (hj' : Depicts h' v' j)
      {path : List Value} {w : Value} (hl : h.Leads v path w) :
      (∃ r, w = .table r) ∧ (∃ r, h'.Leads v' path (.table r)) ∨
        (∀ r, w ≠ .table r) ∧ h'.Leads v' path w := by
    obtain ⟨w', j', hl', hw, hw'⟩ := hj.leads hl hj'
    rcases hw.alike hw' with ⟨htable, r, rfl⟩ | ⟨hplain, rfl⟩
    · exact .inl ⟨htable, r, hl'⟩
    · exact .inr ⟨hplain, hl'⟩
  have htable {h h' : Heap} {v v' : Value} (hj : Depicts h v j) (hj' : Depicts h' v' j)
      {path : List Value} : (∃ r, h.Leads v path (.table r)) → ∃ r, h'.Leads v' path (.table r) := by
    rintro ⟨r, hl⟩
    rcases hone hj hj' hl with ⟨-, hl'⟩ | ⟨hplain, -⟩
    · exact hl'
    · exact absurd rfl (hplain r)
  have hplain {h h' : Heap} {v v' : Value} (hj : Depicts h v j) (hj' : Depicts h' v' j)
      {path : List Value} {w : Value} (hw : ∀ r, w ≠ .table r) (hl : h.Leads v path w) :
      h'.Leads v' path w := by
    rcases hone hj hj' hl with ⟨⟨r, hr⟩, -⟩ | ⟨-, hl'⟩
    · exact absurd hr (hw r)
    · exact hl'
  exact fun path => ⟨⟨htable hj hj', htable hj' hj⟩, fun w hw => ⟨hplain hj hj' hw, hplain hj' hj hw⟩⟩

end Reactor.Script
