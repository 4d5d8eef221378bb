/-
  Tables of names.

  A table whose keys are all texts has no list part, and takes no more than
  about twice the room that its entries need.

  * `Names`: such a table, without a metatable;
  * `Names.setText`: writing under a name adds at most one entry;
  * `names_standardGlobals`: the globals are such a table at the start.
-/
import Reactor.Proofs.Lua.Heap

namespace Reactor.Lua.Table

/-- The least power of two that is at least a number is at most twice as
    large. -/
theorem powerOfTwo_le (n : Nat) : powerOfTwo n ≤ 2 * n := by
  unfold powerOfTwo
  split
  · omega
  · split
    · omega
    · have hlog : Nat.pow 2 (n - 1).log2 ≤ n - 1 := Nat.log2_self_le (by omega)
      have hsucc : Nat.pow 2 ((n - 1).log2 + 1) = Nat.pow 2 (n - 1).log2 * 2 := rfl
      omega

/-- A table without list part and metatable; its entries, at most `n`, stand
    under texts, and it has room for at most `m`. -/
structure Names (t : Table) (n m : Nat) : Prop where
  list : t.list = #[]
  plain : t.meta? = none
  texts : ∀ e ∈ t.entries.toList, ∃ s, e.1 = .str s
  size : t.entries.size ≤ n
  room : t.room ≤ m

variable {t : Table} {n m : Nat}

theorem Names.bytes_le (h : t.Names n m) : t.bytes ≤ 56 + 24 * m := by
  have hroom := h.room
  rw [bytes, h.list, Array.size_empty]
  omega

theorem Names.push (h : t.Names n m) (s : Bytes) (v : Value) :
    (t.push (.str s) v).Names (n + 1) m := by
  have hentries : (t.push (.str s) v).entries = t.entries.push (.str s, v) := rfl
  refine ⟨h.list, h.plain, fun e he => ?_, ?_, h.room⟩
  · rw [hentries, Array.toList_push, List.mem_append, List.mem_singleton] at he
    rcases he with he | rfl
    · exact h.texts e he
    · exact ⟨s, rfl⟩
  · rw [hentries, Array.size_push]
    exact Nat.succ_le_succ h.size

/-! ## Growing -/

/-- Among texts there is no integer to count. -/
theorem foldl_countKey {es : List (Value × Value)} (h : ∀ e ∈ es, ∃ s, e.1 = .str s)
    (counts : Array Nat) :
    es.foldl (fun cs e => if e.2.isNil then cs else countKey cs e.1) counts = counts := by
  induction es with
  | nil => rfl
  | cons e es ih =>
    rw [List.forall_mem_cons] at h
    obtain ⟨⟨s, hs⟩, hes⟩ := h
    rw [List.foldl_cons, hs, show countKey counts (.str s) = counts from rfl, ite_self]
    exact ih hes

theorem foldl_live_le (es : List (Value × Value)) : ∀ n : Nat,
    es.foldl (fun n e => if e.2.isNil then n else n + 1) n ≤ n + es.length := by
  induction es with
  | nil => exact fun n => Nat.le_refl n
  | cons e es ih =>
    intro n
    rw [List.foldl_cons, List.length_cons]
    split
    · have hrest := ih n; omega
    · have hrest := ih (n + 1); omega

theorem Names.foldl_put {es : List (Value × Value)} (hes : ∀ e ∈ es, ∃ s, e.1 = .str s) :
    ∀ {t : Table} {n : Nat}, t.Names n m →
      (es.foldl (fun b (e : Value × Value) => if e.2.isNil then b else b.put e.1 e.2) t).Names
        (n + es.length) m := by
  induction es with
  | nil => exact fun h => h
  | cons e es ih =>
    intro t n h
    rw [List.forall_mem_cons] at hes
    obtain ⟨⟨s, hs⟩, hes⟩ := hes
    rw [List.foldl_cons, List.length_cons, Nat.add_comm es.length, ← Nat.add_assoc, hs]
    refine ih hes ?_
    split
    · exact ⟨h.list, h.plain, h.texts, Nat.le_succ_of_le h.size, h.room⟩
    · exact h.push s e.2

/-- No integer counts, so no list part is worth it. -/
theorem bestSize_none :
    bestSize (Array.replicate 28 0) ((Array.replicate 28 0).foldl (· + ·) 0) 28 0 0 (0, 0) =
      (0, 0) :=
  rfl

/-- A table of names grows as a table of names. -/
theorem Names.rehash (h : t.Names n m) (s : Bytes) : (t.rehash (.str s)).Names n (2 * (n + 1)) := by
  obtain ⟨list, entries, index, room, meta?⟩ := t
  obtain ⟨hlist, hplain, htexts, hsize, -⟩ := h
  cases (hlist : list = #[])
  cases (hplain : meta? = none)
  have hcounts := foldl_countKey htexts (Array.replicate 28 0)
  have hlive := foldl_live_le entries.toList 0
  rw [Array.foldl_toList] at hcounts hlive
  rw [Array.length_toList] at hlive
  unfold Table.rehash
  simp only [Array.foldl_empty, hcounts, show ∀ cs, countKey cs (.str s) = cs from fun _ => rfl,
    bestSize_none, Array.extract_empty]
  generalize entries.foldl (fun n e => if e.2.isNil then n else n + 1) 0 = live at hlive ⊢
  have hroom := powerOfTwo_le (live + 1)
  have hsize : entries.size ≤ n := hsize
  have hbase : (Table.mk #[] #[] .empty (powerOfTwo (live + 1)) none).Names 0 (2 * (n + 1)) :=
    ⟨rfl, rfl, fun _ he => absurd he List.not_mem_nil, Nat.le_refl 0, by dsimp only; omega⟩
  have hput := hbase.foldl_put htexts
  rw [Array.foldl_toList, Array.length_toList, Nat.zero_add] at hput
  rw [show (Array.replicate 28 0).foldl (· + ·) 0 = 0 from rfl, Nat.zero_add, Nat.sub_zero]
  exact ⟨hput.list, hput.plain, hput.texts, Nat.le_trans hput.size hsize, hput.room⟩

/-- **Writing under a name** adds at most one entry. -/
theorem Names.setText (h : t.Names n (2 * n)) (s : String) (v : Value) :
    (t.setText s v).Names (n + 1) (2 * (n + 1)) := by
  have hroom := h.room
  have hsize := h.size
  have hgrown : t.Names (n + 1) (2 * (n + 1)) :=
    ⟨h.list, h.plain, h.texts, Nat.le_succ_of_le hsize, by omega⟩
  rw [Table.setText, Value.ofString, Table.set, show t.listPlace? (.str s.toUTF8) = none from rfl]
  dsimp only
  split
  · refine ⟨h.list, h.plain, fun e he => ?_, ?_, hgrown.room⟩
    · rw [Array.mem_toList_iff, Array.mem_iff_getElem?] at he
      obtain ⟨q, hq⟩ := he
      rw [Array.getElem?_modify] at hq
      split at hq
      · obtain ⟨e', he', rfl⟩ := Option.map_eq_some_iff.1 hq
        exact h.texts e' (Array.mem_toList_iff.2 (Array.mem_of_getElem? he'))
      · exact h.texts e (Array.mem_toList_iff.2 (Array.mem_of_getElem? hq))
    · rw [Array.size_modify]; exact hgrown.size
  · rw [insertNew]
    split
    · exact hgrown
    · split
      · exact ⟨h.list, h.plain, (h.push _ v).texts, (h.push _ v).size, hgrown.room⟩
      · exact (h.rehash s.toUTF8).push s.toUTF8 v

theorem Names.ofNatives {fields : List (String × Native)} : ∀ {t : Table} {n : Nat},
    t.Names n (2 * n) →
      (ofNatives fields t).Names (n + fields.length) (2 * (n + fields.length)) := by
  induction fields with
  | nil => exact fun h => h
  | cons f fields ih =>
    intro t n h
    rw [List.length_cons, Nat.add_comm fields.length, ← Nat.add_assoc]
    exact ih (h.setText f.1 (.native f.2))

/-- **The globals** are a table of names at the start. -/
theorem names_standardGlobals : standardGlobals.Names 28 (2 * 28) := by
  have hempty : empty.Names 0 (2 * 0) :=
    ⟨rfl, rfl, fun _ he => absurd he List.not_mem_nil, Nat.le_refl 0, Nat.le_refl 0⟩
  have hnatives : (Table.ofNatives Native.basic empty).Names 23 (2 * 23) := hempty.ofNatives
  unfold standardGlobals
  exact ((((hnatives.setText _ _).setText _ _).setText _ _).setText _ _).setText _ _

end Reactor.Lua.Table
