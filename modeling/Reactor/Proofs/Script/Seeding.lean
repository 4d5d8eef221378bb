/-
  Data as values of a script.

  * `Heap.Grown`: tables are added to a heap, `Heap.Added`: which ones;
  * `Seeded`: a value shows some JSON, on tables that were added for it;
  * `Fills`: values are put into a table one after the other; items of a list
    and fields of an object are two cases of it;
  * `seeded_seed`: the value that is made of some JSON shows what a script
    passes on of it.
-/
import Reactor.Proofs.Json.Shape
import Reactor.Proofs.Script.Unfolding

namespace Reactor.Lua

theorem Table.get_of_no_entries (n room : Nat) (meta? : Option Nat) (k : Value) :
    (Table.mk (Array.replicate n .nil) #[] .empty room meta?).get k = .nil := by
  unfold get
  split
  · rw [Array.getD_eq_getD_getElem?, Array.getElem?_replicate]
    split <;> rfl
  · rfl

namespace Heap

variable {h h₁ h₂ : Heap} {r : Nat}

/-- Tables and bytes are added to a heap, and all else is as before. -/
def Grown (h h' : Heap) : Prop :=
  ∃ (ts : Array Table) (n : Nat), h' = { h with tables := h.tables ++ ts, used := h.used + n }

theorem Grown.refl (h : Heap) : h.Grown h := ⟨#[], 0, by rw [Array.append_empty]; rfl⟩

theorem Grown.trans (h₁₂ : h.Grown h₁) (h₂₃ : h₁.Grown h₂) : h.Grown h₂ := by
  obtain ⟨ts, n, rfl⟩ := h₁₂
  obtain ⟨us, m, rfl⟩ := h₂₃
  exact ⟨ts ++ us, n + m, by rw [Array.append_assoc, Nat.add_assoc]⟩

theorem Grown.allocTable (h : Heap) (t : Table) : h.Grown (h.allocTable t).2 :=
  ⟨#[t], t.bytes, by rw [Array.append_singleton]; rfl⟩

theorem Grown.size_le (hg : h.Grown h₁) : h.tables.size ≤ h₁.tables.size := by
  obtain ⟨ts, n, rfl⟩ := hg
  rw [Array.size_append]
  exact Nat.le_add_right _ _

/-- The tables before stay as they are. -/
theorem Grown.table (hg : h.Grown h₁) (hr : r < h.tables.size) : h₁.table r = h.table r := by
  obtain ⟨ts, n, rfl⟩ := hg
  rw [Heap.table, Heap.table, Array.getD_eq_getD_getElem?, Array.getD_eq_getD_getElem?,
    Array.getElem?_append_left hr]

/-- The tables that were added from one heap to another stand in a third. -/
def Added (h h' k : Heap) : Prop :=
  ∀ r, h.tables.size ≤ r → r < h'.tables.size → k.table r = h'.table r

theorem Added.left {k : Heap} (hk : Added h h₂ k) (hg : h₁.Grown h₂) : Added h h₁ k :=
  fun r hlow hr => (hk r hlow (Nat.lt_of_lt_of_le hr hg.size_le)).trans (hg.table hr)

theorem Added.right {k : Heap} (hk : Added h h₂ k) (hg : h.Grown h₁) : Added h₁ h₂ k :=
  fun r hlow hr => hk r (Nat.le_trans hg.size_le hlow) hr

theorem table_allocTable (h : Heap) (t : Table) (r : Nat) :
    (h.allocTable t).2.table r = if r = h.tables.size then t else h.table r := by
  rw [Heap.table, Heap.table, Heap.allocTable, Array.getD_eq_getD_getElem?,
    Array.getD_eq_getD_getElem?, Array.getElem?_push]
  split <;> rfl

theorem Valid.allocTable (hh : h.Valid) {t : Table} (ht : t.Valid) : (h.allocTable t).2.Valid := by
  intro r
  rw [table_allocTable]
  split
  · exact ht
  · exact hh r

end Heap

end Reactor.Lua

namespace Reactor.Script

open Lua

/-- A value has been made of some JSON: on the tables that were added, whatever
    becomes of others, it shows what a script passes on of it. -/
structure Seeded (h : Heap) (j : Json) (v : Value) (h' : Heap) : Prop where
  grown : h.Grown h'
  valid : h.Valid → h'.Valid
  depicts : ∀ k : Heap, h.Added h' k → Depicts k v j.passed

/-- Values made of JSON have been put into a table. -/
inductive Fills : Heap → Table → List (Value × Json) → Heap → Table → Prop
  | nil (h : Heap) (t : Table) : Fills h t [] h t
  | cons {h h₁ h' : Heap} {t t' : Table} {k v : Value} {j : Json} {es : List (Value × Json)} :
      k.key? = some k → Seeded h j v h₁ → Fills h₁ (t.set k v) es h' t' →
      Fills h t ((k, j) :: es) h' t'

variable {h h' : Heap} {t t' : Table} {es : List (Value × Json)} {j : Json}

theorem Fills.grown (hf : Fills h t es h' t') : h.Grown h' := by
  induction hf with
  | nil => exact .refl _
  | cons _ hv _ ih => exact hv.grown.trans ih

theorem Fills.valid (hf : Fills h t es h' t') (hh : h.Valid) : h'.Valid := by
  induction hf with
  | nil => exact hh
  | cons _ hv _ ih => exact ih (hv.valid hh)

theorem Fills.valid_table (hf : Fills h t es h' t') (ht : t.Valid) : t'.Valid := by
  induction hf with
  | nil => exact ht
  | cons hk _ _ ih => exact ih (ht.set hk _).1

/-- What is under other keys stays. -/
theorem Fills.get_of_notMem (hf : Fills h t es h' t') (ht : t.Valid) {k : Value}
    (hk : k ∉ es.map (·.1)) : t'.get k = t.get k := by
  induction hf with
  | nil => rfl
  | cons hkey _ _ ih =>
    rw [List.map_cons, List.mem_cons, not_or] at hk
    rw [ih (ht.set hkey _).1 hk.2, (ht.set hkey _).2, if_neg hk.1]

/-- **What was put in stands under its key.** -/
theorem Fills.depicts (hf : Fills h t es h' t') (ht : t.Valid) (hn : (es.map (·.1)).Nodup)
    {k : Heap} (hk : h.Added h' k) {key : Value} (hmem : (key, j) ∈ es) :
    Depicts k (t'.get key) j.passed := by
  induction hf with
  | nil => cases hmem
  | @cons h h₁ h' t t' key' v j' es hkey hv hrest ih =>
    rw [List.map_cons, List.nodup_cons] at hn
    have hvalid := ht.set hkey v
    rcases List.mem_cons.1 hmem with heq | hmem
    · cases heq
      rw [hrest.get_of_notMem hvalid.1 hn.1, hvalid.2, if_pos rfl]
      exact hv.depicts k (hk.left hrest.grown)
    · exact ih hvalid.1 hn.2 (hk.right hv.grown) hmem

/-! ## Items and fields -/

/-- The items of a list under their numbers from `n` on. -/
def numbered (n : Nat) (items : List Json) : List (Value × Json) :=
  (items.zipIdx n).map fun (j, i) => (.int (.ofNat i), j)

/-- The fields of an object under their names. -/
def named (fields : Fields Json) : List (Value × Json) := fields.map fun (s, j) => (.ofString s, j)

theorem fills_seedItems {items : List Json}
    (ih : ∀ j ∈ items, ∀ h, Seeded h j (seed h j).1 (seed h j).2) :
    ∀ (h : Heap) (t : Table) (n : Nat),
      Fills h t (numbered n items) (seedItems (h, t) n items).2 (seedItems (h, t) n items).1 := by
  induction items with
  | nil => exact fun h t n => .nil h t
  | cons j items ihs =>
    intro h t n
    rw [List.forall_mem_cons] at ih
    exact .cons rfl (ih.1 h) (ihs ih.2 _ _ _)

theorem fills_seedFields {fields : Fields Json}
    (ih : ∀ s j, (s, j) ∈ fields → ∀ h, Seeded h j (seed h j).1 (seed h j).2) :
    ∀ (h : Heap) (t : Table),
      Fills h t (named fields) (seedFields (h, t) fields).2 (seedFields (h, t) fields).1 := by
  induction fields with
  | nil => exact fun h t => .nil h t
  | cons f fields ihs =>
    intro h t
    exact .cons rfl (ih _ _ List.mem_cons_self h)
      (ihs (fun s j hmem => ih s j (List.mem_cons_of_mem _ hmem)) _ _)

theorem keys_numbered (n : Nat) (items : List Json) :
    (numbered n items).map (·.1) = (List.range' n items.length).map fun i => .int (.ofNat i) := by
  rw [numbered, List.map_map, ← List.zipIdx_map_snd n items, List.map_map]
  rfl

theorem keys_named (fields : Fields Json) :
    (named fields).map (·.1) = fields.map fun f => .ofString f.1 := by
  rw [named, List.map_map]
  rfl

theorem nodup_keys_numbered {n : Nat} {items : List Json} (hlt : n + items.length ≤ Nat.pow 2 63) :
    ((numbered n items).map (·.1)).Nodup := by
  rw [keys_numbered, List.Nodup, List.pairwise_map]
  have hrange : (List.range' n items.length).Nodup := List.nodup_range'
  refine hrange.imp_of_mem fun {a b} ha hb hne heq => hne ?_
  rw [List.mem_range'_1] at ha hb
  exact int_ofNat_inj (by omega) (by omega) heq

theorem nodup_keys_named {fields : Fields Json} (hs : fields.Sorted) :
    ((named fields).map (·.1)).Nodup := by
  rw [keys_named, List.Nodup, List.pairwise_map]
  exact hs.imp fun hlt heq => String.ne_of_lt hlt (Value.ofString_inj.1 heq)

/-! ## Lists and objects -/

variable {k : Heap} {r : Nat}

theorem Fills.listed {items : List Json} {n room : Nat} {meta? : Option Nat}
    (hf : Fills h (.mk (Array.replicate n .nil) #[] .empty room meta?) (numbered 1 items) h' t')
    (hn : n < Nat.pow 2 63) (hlt : items.length < Nat.pow 2 63) (hk : h.Added h' k)
    (ht : k.table r = t') (hne : items ≠ []) :
    Depicts k (.table r) (.arr (items.map Json.passed)) := by
  have hvalid : (Table.mk (Array.replicate n .nil) #[] .empty room meta?).Valid :=
    Table.valid_of_no_entries (by rwa [Array.size_replicate]) room meta?
  have hitem (i : Nat) (hi : i < items.length) :
      Depicts k ((k.table r).get (.int (.ofNat (i + 1)))) items[i].passed := by
    rw [ht]
    refine hf.depicts hvalid (nodup_keys_numbered (by omega)) hk
      (List.mem_map.2 ⟨(items[i], i + 1), ?_, rfl⟩)
    rw [List.mem_zipIdx_iff_le_and_getElem?_sub]
    exact ⟨Nat.le_add_left 1 i, by rw [Nat.add_sub_cancel, List.getElem?_eq_getElem hi]⟩
  refine .arr (by rwa [Ne, List.map_eq_nil_iff]) (fun key => ?_) fun i hi => ?_
  · rw [List.length_map]
    constructor
    · intro hget
      by_cases hmem : key ∈ (numbered 1 items).map (·.1)
      · rw [keys_numbered, List.mem_map] at hmem
        obtain ⟨i, hi, rfl⟩ := hmem
        rw [List.mem_range'_1] at hi
        have htoInt : (Int64.ofNat i).toInt = i := toInt_ofNat (by omega)
        exact ⟨_, rfl, by omega, by omega⟩
      · rw [ht, hf.get_of_notMem hvalid hmem, Table.get_of_no_entries] at hget
        exact absurd rfl hget
    · rintro ⟨i, rfl, hpos, hle⟩
      have hkey : i = .ofNat (i.toInt.toNat - 1 + 1) := Int64.toInt_inj.1 (by
        rw [toInt_ofNat (by omega)]; omega)
      rw [hkey]
      exact (hitem _ (by omega)).ne_nil
  · rw [List.getElem_map]
    rw [List.length_map] at hi
    exact hitem i hi

theorem Fills.object {fields : Fields Json} {room : Nat}
    (hf : Fills h (Table.mk (Array.replicate 0 .nil) #[] .empty room none) (named fields) h' t')
    (hs : fields.Sorted) (hk : h.Added h' k) (ht : k.table r = t') :
    Depicts k (.table r) (.obj (fields.map fun f => (f.1, f.2.passed))) := by
  have hvalid : (Table.mk (Array.replicate 0 .nil) #[] .empty room none).Valid :=
    Table.valid_of_no_entries (by decide) room none
  refine .obj (hs.map (g := fun _ j => j.passed)) (fun key hget => ?_) fun s j hmem => ?_
  · by_cases hmem : key ∈ (named fields).map (·.1)
    · rw [keys_named, List.mem_map] at hmem
      obtain ⟨f, hf, rfl⟩ := hmem
      exact ⟨_, _, rfl, List.mem_map.2 ⟨f, hf, rfl⟩⟩
    · rw [ht, hf.get_of_notMem hvalid hmem, Table.get_of_no_entries] at hget
      exact absurd rfl hget
  · obtain ⟨⟨s, j⟩, hfield, heq⟩ := List.mem_map.1 hmem
    cases heq
    rw [ht]
    exact hf.depicts hvalid (nodup_keys_named hs) hk (List.mem_map.2 ⟨(s, j), hfield, rfl⟩)

/-- A table with nothing in it shows an empty object. -/
theorem depicts_empty {room n : Nat} {meta? : Option Nat}
    (ht : k.table r = Table.mk (Array.replicate n .nil) #[] .empty room meta?) :
    Depicts k (.table r) (.obj []) :=
  .obj .nil (fun key hget => absurd (ht ▸ Table.get_of_no_entries n room meta? key) hget) nofun

/-- A new table for what was put into it. -/
theorem Fills.seeded {j : Json} (hf : Fills h t es h' t') (ht : t.Valid)
    (hj : ∀ k : Heap, h.Added h' k → k.table h'.tables.size = t' →
      Depicts k (.table h'.tables.size) j.passed) :
    Seeded h j (.table (h'.allocTable t').1) (h'.allocTable t').2 := by
  have hsize : (h'.allocTable t').2.tables.size = h'.tables.size + 1 := Array.size_push _
  refine ⟨hf.grown.trans (.allocTable h' t'),
    fun hh => (hf.valid hh).allocTable (hf.valid_table ht), fun k hk => hj k (fun r hlow hr => ?_) ?_⟩
  · rw [hk r hlow (by omega), Heap.table_allocTable, if_neg (by omega)]
  · rw [hk _ hf.grown.size_le (by omega), Heap.table_allocTable, if_pos rfl]

/-- A plain value needs no table. -/
theorem seeded_plain {v : Value} (hv : Plain v j.passed) : Seeded h j v h :=
  ⟨.refl h, id, fun _ _ => .plain hv⟩

/-- A number becomes an integer, or the double that it converts to. -/
theorem plain_ofInt {i : Int} (hlow : -(Word.count 63 : Int) ≤ i) (hhigh : i < Word.count 64) :
    Plain (ofInt i) (Json.int i).passed := by
  rw [ofInt, Json.passed]
  have hpow : (Word.count 63 : Nat) = 9223372036854775808 := rfl
  split
  · rename_i hi
    simp only [Word.isSigned, Bool.and_eq_true, decide_eq_true_eq] at hi
    have htoInt : (Int64.ofInt i).toInt = i := Int64.toInt_ofInt_of_le (by omega) (by omega)
    have hplain := Plain.int (.ofInt i)
    rwa [htoInt] at hplain
  · rename_i hi
    simp only [Word.isSigned, Bool.and_eq_true, decide_eq_true_eq, not_and, Int.not_lt] at hi
    exact .num _ (Decimal.isFinite_ofInt (hi hlow) hhigh)

/-- **The value that is made of some JSON** shows what a script passes on of
    it. -/
theorem seeded_seed (hj : j.Proper) (h : Heap) : Seeded h j (seed h j).1 (seed h j).2 := by
  induction hj generalizing h with
  | null => exact seeded_plain .null
  | bool b => exact seeded_plain (.bool b)
  | @int i hlow hhigh =>
    exact seeded_plain (plain_ofInt hlow hhigh)
  | @float x hx => exact seeded_plain (.num x hx)
  | str s => exact seeded_plain (.str s)
  | @arr items hlength _ ih =>
    have hf := fills_seedItems ih h
      { Table.withRoom items.length 0 with meta? := some listMetaPlace } 1
    refine hf.seeded ((Table.valid_withRoom hlength 0).setMeta _) fun k hk ht => ?_
    by_cases hnil : items = []
    · subst hnil
      exact depicts_empty ht
    · rw [Json.passed_arr hnil]
      exact hf.listed hlength hlength hk ht hnil
  | @obj fields hs _ ih =>
    have hf := fills_seedFields ih h (Table.withRoom 0 fields.length)
    refine hf.seeded (Table.valid_withRoom (by decide) _) fun k hk ht => ?_
    rw [Json.passed_obj]
    exact hf.object hs hk ht

end Reactor.Script
