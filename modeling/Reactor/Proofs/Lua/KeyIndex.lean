/-
  Places of keys.

  * `pairs` are the recorded places; `Valid`: each stands in the bucket of its
    key, and no key has two;
  * `find?_eq_some`: a place is found if it is recorded;
  * `Valid.insert`: a new place is added to the others, also when the buckets
    are made anew.
-/
import Mathlib.Data.List.Perm.Basic
import Reactor.Lua.Table

namespace Reactor.Lua.KeyIndex

/-! ## Buckets -/

/-- Each place stands in the bucket of its key. -/
def Placed (buckets : Array (List (Value × Nat))) : Prop :=
  ∀ i (h : i < buckets.size), ∀ e ∈ buckets[i], slot buckets.size e.1 = i

theorem slot_lt {n : Nat} (h : 0 < n) (k : Value) : slot n k < n := Nat.mod_lt _ h

theorem size_put (buckets : Array (List (Value × Nat))) (k : Value) (p : Nat) :
    (put buckets k p).size = buckets.size := Array.size_modify

theorem Placed.put {buckets : Array (List (Value × Nat))} (h : Placed buckets) (k : Value)
    (p : Nat) : Placed (put buckets k p) := by
  intro i hi e he
  rw [size_put] at hi ⊢
  simp only [KeyIndex.put, Array.getElem_modify] at he
  split at he
  · rename_i hslot
    rcases List.mem_cons.1 he with rfl | he
    · exact hslot
    · exact h i hi e he
  · exact h i hi e he

theorem flatten_modify_perm {α : Type} (x : α) : ∀ {ls : List (List α)} {i : Nat}, i < ls.length →
    (ls.modify i (x :: ·)).flatten.Perm (x :: ls.flatten)
  | _ :: _, 0, _ => .refl _
  | l :: ls, i + 1, h => by
    rw [List.modify_succ_cons, List.flatten_cons, List.flatten_cons]
    exact ((flatten_modify_perm x (Nat.lt_of_succ_lt_succ h)).append_left l).trans
      List.perm_middle

theorem put_perm {buckets : Array (List (Value × Nat))} (h : 0 < buckets.size) (k : Value)
    (p : Nat) : (put buckets k p).toList.flatten.Perm ((k, p) :: buckets.toList.flatten) := by
  rw [put, Array.toList_modify]
  exact flatten_modify_perm _ (slot_lt h k)

/-- Recording places one after the other. -/
theorem foldl_put (es : List (Value × Nat)) : ∀ {buckets : Array (List (Value × Nat))},
    0 < buckets.size → Placed buckets →
    let new := es.foldl (fun bs (e : Value × Nat) => put bs e.1 e.2) buckets
    new.size = buckets.size ∧ Placed new ∧
      new.toList.flatten.Perm (es ++ buckets.toList.flatten) := by
  induction es with
  | nil => exact fun _ h => ⟨rfl, h, .refl _⟩
  | cons e es ih =>
    intro buckets hpos h
    have hpos' : 0 < (put buckets e.1 e.2).size := by rwa [size_put]
    obtain ⟨hsize, hplaced, hperm⟩ := ih hpos' (h.put e.1 e.2)
    refine ⟨hsize.trans (size_put ..), hplaced, hperm.trans ?_⟩
    exact ((put_perm hpos e.1 e.2).append_left es).trans List.perm_middle

/-! ## The index -/

/-- The recorded places. -/
def pairs (ix : KeyIndex) : List (Value × Nat) := ix.buckets.toList.flatten

/-- No key has two places, and each stands where it is looked for. -/
structure Valid (ix : KeyIndex) : Prop where
  placed : Placed ix.buckets
  nodup : (ix.pairs.map (·.1)).Nodup

theorem valid_empty : empty.Valid := ⟨fun _ h => absurd h (Nat.not_lt_zero _), .nil⟩

theorem mem_pairs_iff {ix : KeyIndex} {e : Value × Nat} :
    e ∈ ix.pairs ↔ ∃ i, ∃ h : i < ix.buckets.size, e ∈ ix.buckets[i] := by
  simp only [pairs, List.mem_flatten, Array.mem_toList_iff, Array.mem_iff_getElem]
  constructor
  · rintro ⟨_, ⟨i, hi, rfl⟩, he⟩; exact ⟨i, hi, he⟩
  · rintro ⟨i, hi, he⟩; exact ⟨_, ⟨i, hi, rfl⟩, he⟩

theorem lookup_eq_some_iff_of_nodup {α β : Type} [BEq α] [LawfulBEq α] {k : α} {p : β} :
    ∀ {l : List (α × β)}, (l.map (·.1)).Nodup → (l.lookup k = some p ↔ (k, p) ∈ l)
  | [], _ => ⟨nofun, nofun⟩
  | (k', p') :: l, h => by
    rw [List.map_cons, List.nodup_cons] at h
    rw [List.lookup_cons, List.mem_cons]
    by_cases hk : k = k'
    · subst hk
      have hnot : (k, p) ∉ l := fun hmem => h.1 (List.mem_map.2 ⟨_, hmem, rfl⟩)
      simp [hnot, eq_comm]
    · have hne : (k == k') = false := beq_eq_false_iff_ne.2 hk
      simp [hk, hne, lookup_eq_some_iff_of_nodup h.2]

/-- **A place is found if it is recorded.** -/
theorem find?_eq_some {ix : KeyIndex} (h : ix.Valid) {k : Value} {p : Nat} :
    ix.find? k = some p ↔ (k, p) ∈ ix.pairs := by
  rw [find?, mem_pairs_iff]
  split
  · rename_i hempty
    rw [Array.isEmpty_iff_size_eq_zero] at hempty
    exact ⟨nofun, fun ⟨i, hi, _⟩ => absurd hi (by omega)⟩
  · rename_i hempty
    rw [Array.isEmpty_iff_size_eq_zero] at hempty
    have hslot := slot_lt (Nat.pos_of_ne_zero hempty) k
    have hnodup : (ix.buckets[slot ix.buckets.size k].map (·.1)).Nodup :=
      h.nodup.sublist ((List.sublist_flatten_of_mem
        (Array.getElem_mem_toList hslot)).map _)
    rw [Array.getD_eq_getD_getElem?, Array.getElem?_eq_getElem hslot, Option.getD_some,
      lookup_eq_some_iff_of_nodup hnodup]
    refine ⟨fun he => ⟨_, hslot, he⟩, fun ⟨i, hi, he⟩ => ?_⟩
    have hi' : slot ix.buckets.size k = i := h.placed i hi _ he
    subst hi'
    exact he

theorem find?_eq_none {ix : KeyIndex} (h : ix.Valid) {k : Value} :
    ix.find? k = none ↔ k ∉ ix.pairs.map (·.1) := by
  rw [List.mem_map, Option.eq_none_iff_forall_ne_some]
  constructor
  · rintro hnone ⟨⟨_, p⟩, hmem, rfl⟩; exact hnone p ((find?_eq_some h).2 hmem)
  · intro hnot p hp; exact hnot ⟨_, (find?_eq_some h).1 hp, rfl⟩

/-- Twice as many buckets hold the same places. -/
theorem Valid.grow {ix : KeyIndex} (h : ix.Valid) :
    ix.grow.Valid ∧ 0 < ix.grow.buckets.size ∧ ix.grow.pairs.Perm ix.pairs := by
  have hreplicate : ∀ n, Placed (Array.replicate n []) := by
    intro n i hi e he
    rw [Array.getElem_replicate] at he
    cases he
  have hpos : 0 < (Array.replicate (max 4 (2 * ix.buckets.size)) ([] : List (Value × Nat))).size := by
    rw [Array.size_replicate]; omega
  obtain ⟨hsize, hplaced, hperm⟩ := foldl_put ix.pairs hpos (hreplicate _)
  have hgrow : ix.grow.buckets = ix.pairs.foldl (fun bs (e : Value × Nat) => put bs e.1 e.2)
      (Array.replicate (max 4 (2 * ix.buckets.size)) []) := by
    rw [pairs, List.foldl_flatten]
    exact (Array.foldl_toList ..).symm
  have hnone : (Array.replicate (max 4 (2 * ix.buckets.size))
      ([] : List (Value × Nat))).toList.flatten = [] := by
    rw [Array.toList_replicate, List.flatten_replicate_nil]
  rw [hnone, List.append_nil, ← hgrow] at hperm
  rw [← hgrow] at hplaced hsize
  exact ⟨⟨hplaced, (hperm.map _).nodup_iff.2 h.nodup⟩, by omega, hperm⟩

/-- **A new place is added to the others.** -/
theorem Valid.insert {ix : KeyIndex} (h : ix.Valid) {k : Value} (hk : ix.find? k = none)
    (p : Nat) : (ix.insert k p).Valid ∧ (ix.insert k p).pairs.Perm ((k, p) :: ix.pairs) := by
  obtain ⟨hgrown, hsize, hgrow⟩ := h.grow
  obtain ⟨base, hbase, hvalid, hpos, hperm⟩ : ∃ base : KeyIndex,
      (ix.insert k p).buckets = put base.buckets k p ∧ base.Valid ∧ 0 < base.buckets.size ∧
        base.pairs.Perm ix.pairs := by
    by_cases hfull : ix.count ≥ ix.buckets.size
    · exact ⟨ix.grow, by rw [KeyIndex.insert, if_pos hfull], hgrown, hsize, hgrow⟩
    · exact ⟨ix, by rw [KeyIndex.insert, if_neg hfull], h, by omega, .refl _⟩
  have hpairs : (ix.insert k p).pairs.Perm ((k, p) :: ix.pairs) := by
    rw [pairs, hbase]
    exact (put_perm hpos k p).trans (hperm.cons _)
  refine ⟨⟨hbase ▸ hvalid.placed.put k p, (hpairs.map _).nodup_iff.2 ?_⟩, hpairs⟩
  rw [List.map_cons, List.nodup_cons]
  exact ⟨(find?_eq_none h).1 hk, h.nodup⟩

theorem find?_insert {ix : KeyIndex} (h : ix.Valid) {k : Value} (hk : ix.find? k = none)
    (p : Nat) (k' : Value) :
    (ix.insert k p).find? k' = if k' = k then some p else ix.find? k' := by
  obtain ⟨hvalid, hperm⟩ := h.insert hk p
  refine Option.ext fun q => ?_
  rw [find?_eq_some hvalid, hperm.mem_iff, List.mem_cons, ← find?_eq_some h]
  split
  · rename_i hkk
    subst hkk
    simp [hk, eq_comm]
  · rename_i hkk
    simp [hkk]

end Reactor.Lua.KeyIndex
