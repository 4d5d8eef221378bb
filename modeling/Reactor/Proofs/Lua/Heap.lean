/-
  Heaps whose tables are maps.

  * `Heap.Valid` is kept by what allocates and writes tables, and
    `valid_standard`: a script starts with such a heap.
-/
import Reactor.Lua.Library
import Reactor.Proofs.Lua.Table

namespace Reactor.Lua

theorem Value.ofString_inj {s t : String} : Value.ofString s = .ofString t ↔ s = t := by
  simp only [Value.ofString, Value.str.injEq, String.toUTF8, String.toByteArray_inj]

namespace Table

variable {t : Table}

theorem Valid.setText (h : t.Valid) (k : String) (v : Value) : (t.setText k v).Valid :=
  (h.set rfl v).1

theorem Valid.get_setText (h : t.Valid) (k : String) (v k' : Value) :
    (t.setText k v).get k' = if k' = .ofString k then v else t.get k' :=
  (h.set rfl v).2 k'

theorem Valid.ofNatives {fields : List (String × Native)} (h : t.Valid) :
    (ofNatives fields t).Valid := by
  induction fields generalizing t with
  | nil => exact h
  | cons f fields ih => exact ih (h.setText f.1 (.native f.2))

end Table

namespace Heap

variable {h : Heap}

/-- The tables of a heap hold each key in one place. -/
def Valid (h : Heap) : Prop := ∀ r, (h.table r).Valid

theorem valid_of_forall_mem (hall : ∀ t ∈ h.tables, t.Valid) : h.Valid := fun r => by
  rw [table, Array.getD_eq_getD_getElem?]
  cases ht : h.tables[r]? with
  | none => exact Table.valid_empty
  | some t => exact hall t (Array.mem_of_getElem? ht)

theorem valid_standardGlobals : standardGlobals.Valid := by
  unfold standardGlobals
  exact ((((Table.valid_empty.ofNatives.setText _ _).setText _ _).setText _ _).setText _ _).setText _ _

theorem valid_standardMath : standardMath.Valid := by
  unfold standardMath
  exact (((Table.valid_empty.ofNatives.setText _ _).setText _ _).setText _ _).setText _ _

/-- A script starts with a heap whose tables are maps. -/
theorem valid_standard (limit : Nat) : (standard limit).Valid := by
  refine valid_of_forall_mem fun t ht => ?_
  simp only [standard, List.mem_toArray, List.mem_cons, List.not_mem_nil, or_false] at ht
  rcases ht with h | h | h | h | h | h <;> rw [h]
  · exact valid_standardGlobals
  · exact Table.valid_empty.ofNatives
  · exact Table.valid_empty.ofNatives
  · exact valid_standardMath
  · exact Table.valid_empty.ofNatives.setText _ _
  · exact Table.valid_empty.setText _ _

end Heap

end Reactor.Lua
