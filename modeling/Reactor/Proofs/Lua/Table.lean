/-
  Tables as maps.

  * `Valid`: a table holds each key in one place, where it is looked for;
  * `Holds`: a value in its place; `holds_iff`: that is what is found;
  * `mem_toList`: the traversal meets what is found, and `nodup_keys`: each key
    once;
  * `Valid.set`: writing under a key changes what is found under it and nothing
    else, also when the table grows.
-/
import Reactor.Proofs.Lua.KeyIndex

namespace Reactor.Lua

theorem Value.isNil_iff {v : Value} : v.isNil = true ↔ v = .nil := by
  cases v <;> simp [Value.isNil]

theorem Value.isNil_eq_false_iff {v : Value} : v.isNil = false ↔ v ≠ .nil := by
  rw [← Bool.not_eq_true, Value.isNil_iff]

/-- How many integers of 64 bits are not negative. -/
theorem pow_63 : Nat.pow 2 63 = 9223372036854775808 := rfl

theorem toInt_ofNat {n : Nat} (h : n < Nat.pow 2 63) : (Int64.ofNat n).toInt = n :=
  Int64.toInt_ofNat_of_lt h

theorem int_ofNat_inj {m n : Nat} (hm : m < Nat.pow 2 63) (hn : n < Nat.pow 2 63)
    (h : Value.int (.ofNat m) = .int (.ofNat n)) : m = n := by
  have h' := congrArg Int64.toInt (Value.int.inj h)
  rw [toInt_ofNat hm, toInt_ofNat hn] at h'
  exact Int.ofNat.inj h'

namespace Table

variable {t : Table} {k v : Value}

/-! ## What a table holds -/

/-- The key of the entry at a place. -/
def keyAt (t : Table) (p : Nat) : Option Value := t.entries[p]?.map (·.1)

theorem keyAt_eq_some {p : Nat} : t.keyAt p = some k ↔ ∃ v, t.entries[p]? = some (k, v) := by
  rw [keyAt, Option.map_eq_some_iff]
  exact ⟨fun ⟨(_, v), he, hk⟩ => ⟨v, hk ▸ he⟩, fun ⟨v, he⟩ => ⟨(k, v), he, rfl⟩⟩

/-- A table that holds each key in one place, where it is looked for. -/
structure Valid (t : Table) : Prop where
  index : t.index.Valid
  places : ∀ k p, t.index.find? k = some p ↔ t.keyAt p = some k
  stored : ∀ {p k}, t.keyAt p = some k → k.key? = some k
  unlisted : ∀ {p k}, t.keyAt p = some k → t.listPlace? k = none
  fits : t.list.size < Nat.pow 2 63

/-- A value stands in its place. -/
def Holds (t : Table) (k v : Value) : Prop :=
  (∃ j, t.listPlace? k = some j ∧ t.list[j]? = some v) ∨ ∃ p : Nat, t.entries[p]? = some (k, v)

theorem listPlace?_eq_some (h : t.list.size < Nat.pow 2 63) {j : Nat} :
    t.listPlace? k = some j ↔ j < t.list.size ∧ k = .int (.ofNat (j + 1)) := by
  constructor
  · intro hk
    unfold listPlace? at hk
    split at hk
    · rename_i i
      dsimp only at hk
      split at hk
      · cases hk
        rename_i hi
        refine ⟨by omega, congrArg _ (Int64.toInt_inj.1 ?_)⟩
        rw [toInt_ofNat (by omega)]
        omega
      · cases hk
    · cases hk
  · rintro ⟨hj, rfl⟩
    have hj' : (Int64.ofNat (j + 1)).toInt = (j + 1 : Nat) := toInt_ofNat (by omega)
    simp only [listPlace?, hj']
    rw [if_pos (by omega)]
    exact congrArg some (by omega)

/-- Where an integer stands in the list part depends on its size only. -/
theorem listPlace?_congr {u : Table} (h : u.list.size = t.list.size) (k : Value) :
    u.listPlace? k = t.listPlace? k := by
  unfold listPlace?
  rw [h]

theorem get_of_listPlace? {j : Nat} (h : t.listPlace? k = some j) : t.get k = t.list.getD j .nil := by
  rw [get, h]

theorem get_of_entry (ht : t.Valid) {p : Nat} (h : t.entries[p]? = some (k, v)) : t.get k = v := by
  have hkey := keyAt_eq_some.2 ⟨v, h⟩
  rw [get, ht.unlisted hkey]
  simp only [(ht.places k p).2 hkey]
  rw [Array.getD_eq_getD_getElem?, h]
  rfl

/-- **What stands in its place is found.** -/
theorem Holds.get (ht : t.Valid) (h : t.Holds k v) : t.get k = v := by
  rcases h with ⟨j, hj, hv⟩ | ⟨p, hp⟩
  · rw [get_of_listPlace? hj, Array.getD_eq_getD_getElem?, hv]
    rfl
  · exact get_of_entry ht hp

theorem holds_get (ht : t.Valid) (h : t.get k ≠ .nil) : t.Holds k (t.get k) := by
  cases hj : t.listPlace? k with
  | some j =>
    have hlt := ((listPlace?_eq_some ht.fits).1 hj).1
    refine .inl ⟨j, hj, ?_⟩
    rw [get_of_listPlace? hj, Array.getD_eq_getD_getElem?, Array.getElem?_eq_getElem hlt]
    rfl
  | none =>
    cases hp : t.index.find? k with
    | some p =>
      obtain ⟨v, hv⟩ := keyAt_eq_some.1 ((ht.places k p).1 hp)
      rw [get_of_entry ht hv]
      exact .inr ⟨p, hv⟩
    | none => rw [get, hj] at h; simp only [hp] at h; exact absurd rfl h

theorem holds_iff (ht : t.Valid) (hv : v ≠ .nil) : t.Holds k v ↔ t.get k = v :=
  ⟨Holds.get ht, fun h => h ▸ holds_get ht (h ▸ hv)⟩

/-- Only keys in stored form are found. -/
theorem key?_of_get (ht : t.Valid) (h : t.get k ≠ .nil) : k.key? = some k := by
  rcases holds_get ht h with ⟨j, hj, -⟩ | ⟨p, hp⟩
  · rw [((listPlace?_eq_some ht.fits).1 hj).2]; rfl
  · exact ht.stored (keyAt_eq_some.2 ⟨_, hp⟩)

/-! ## Traversal -/

/-- Values in a row, under the numbers from `n` on. -/
def listedFrom (n : Nat) (vs : List Value) : List (Value × Value) :=
  (vs.zipIdx n).filterMap fun (v, j) => if v.isNil then none else some (.int (.ofNat j), v)

theorem listedFrom_cons (n : Nat) (v : Value) (vs : List Value) : listedFrom n (v :: vs) =
    if v.isNil then listedFrom (n + 1) vs else (.int (.ofNat n), v) :: listedFrom (n + 1) vs := by
  rw [listedFrom, List.zipIdx_cons, List.filterMap_cons]
  cases h : v.isNil <;> simp [h, listedFrom]

theorem mem_listedFrom {n : Nat} {vs : List Value} : (k, v) ∈ listedFrom n vs ↔
    v ≠ .nil ∧ ∃ j, vs[j]? = some v ∧ k = .int (.ofNat (n + j)) := by
  simp only [listedFrom, List.mem_filterMap, Prod.exists, Option.ite_none_left_eq_some,
    List.mk_mem_zipIdx_iff_le_and_getElem?_sub, Bool.not_eq_true, Value.isNil_eq_false_iff,
    Option.some.injEq, Prod.mk.injEq]
  constructor
  · rintro ⟨v, m, ⟨hm, hget⟩, hv, rfl, rfl⟩
    exact ⟨hv, m - n, hget, by rw [Nat.add_sub_of_le hm]⟩
  · rintro ⟨hv, j, hget, rfl⟩
    exact ⟨v, n + j, ⟨Nat.le_add_right n j, by rwa [Nat.add_sub_cancel_left]⟩, hv, rfl, rfl⟩

/-- What a table holds outside of the first places of its list part. -/
def rest (t : Table) (n : Nat) : List (Value × Value) :=
  listedFrom (n + 1) (t.list.toList.drop n) ++ t.entries.toList.filter fun e => !e.2.isNil

theorem toList_eq (t : Table) : t.toList = t.rest 0 := by
  rw [toList, rest, listedFrom, List.zipIdx_succ, List.filterMap_map]
  rfl

theorem mem_rest (ht : t.Valid) {n : Nat} : (k, v) ∈ t.rest n ↔ v ≠ .nil ∧
    ((∃ j, n ≤ j ∧ t.listPlace? k = some j ∧ t.list[j]? = some v) ∨
      ∃ p : Nat, t.entries[p]? = some (k, v)) := by
  have hplaces : (∃ j, (t.list.toList.drop n)[j]? = some v ∧ k = .int (.ofNat (n + 1 + j))) ↔
      ∃ j, n ≤ j ∧ t.listPlace? k = some j ∧ t.list[j]? = some v := by
    constructor
    · rintro ⟨j, hj, hk⟩
      rw [List.getElem?_drop, Array.getElem?_toList] at hj
      have hlt := (Array.getElem?_eq_some_iff.1 hj).1
      exact ⟨n + j, Nat.le_add_right n j, (listPlace?_eq_some ht.fits).2
        ⟨hlt, by rw [hk, Nat.add_right_comm]⟩, hj⟩
    · rintro ⟨j, hnj, hk, hj⟩
      obtain ⟨m, rfl⟩ := Nat.exists_eq_add_of_le hnj
      obtain ⟨-, hk⟩ := (listPlace?_eq_some ht.fits).1 hk
      exact ⟨m, by rw [List.getElem?_drop, Array.getElem?_toList, hj], by rw [hk, Nat.add_right_comm]⟩
  rw [rest, List.mem_append, mem_listedFrom, hplaces, List.mem_filter, Bool.not_eq_true',
    Value.isNil_eq_false_iff, Array.mem_toList_iff, Array.mem_iff_getElem?, and_comm (b := _ ≠ _),
    ← and_or_left]

/-- **The traversal meets what is found.** -/
theorem mem_toList (ht : t.Valid) : (k, v) ∈ t.toList ↔ t.get k = v ∧ v ≠ .nil := by
  have hholds : (∃ j, 0 ≤ j ∧ t.listPlace? k = some j ∧ t.list[j]? = some v) ↔
      ∃ j, t.listPlace? k = some j ∧ t.list[j]? = some v :=
    exists_congr fun j => and_iff_right (Nat.zero_le j)
  rw [toList_eq, mem_rest ht, hholds, and_comm]
  exact and_congr_left fun hv => holds_iff ht hv

theorem nodup_keys_listedFrom {vs : List Value} : ∀ {n : Nat}, n + vs.length ≤ Nat.pow 2 63 →
    ((listedFrom n vs).map (·.1)).Nodup := by
  induction vs with
  | nil => exact fun _ => .nil
  | cons v vs ih =>
    intro n h
    rw [List.length_cons] at h
    have hrest := ih (n := n + 1) (by omega)
    rw [listedFrom_cons]
    split
    · exact hrest
    · refine List.nodup_cons.2 ⟨fun hmem => ?_, hrest⟩
      obtain ⟨⟨k, v⟩, hmem, hk⟩ := List.mem_map.1 hmem
      obtain ⟨-, j, hj, rfl⟩ := mem_listedFrom.1 hmem
      have hj := (List.getElem?_eq_some_iff.1 hj).1
      exact absurd (int_ofNat_inj (by omega) (by omega) hk) (by omega)

theorem Valid.eq_of_key (ht : t.Valid) {p q : Nat} (hp : t.keyAt p = some k)
    (hq : t.keyAt q = some k) : p = q := by
  rw [← ht.places] at hp hq
  exact Option.some.inj (hp.symm.trans hq)

theorem nodup_keys_entries (ht : t.Valid) : (t.entries.toList.map (·.1)).Nodup := by
  rw [List.Nodup, List.pairwise_map, List.pairwise_iff_getElem]
  intro p q hp hq hlt hkey
  have hat (p : Nat) (hp : p < t.entries.toList.length) :
      t.keyAt p = some (t.entries.toList[p]).1 := by
    rw [keyAt, ← Array.getElem?_toList, List.getElem?_eq_getElem hp]
    rfl
  exact absurd (ht.eq_of_key (hat p hp) (hkey ▸ hat q hq)) (Nat.ne_of_lt hlt)

theorem nodup_keys_rest (ht : t.Valid) {n : Nat} (hn : n < Nat.pow 2 63) :
    ((t.rest n).map (·.1)).Nodup := by
  have hfits := ht.fits
  rw [rest, List.map_append, List.nodup_append]
  refine ⟨nodup_keys_listedFrom (by rw [List.length_drop, Array.length_toList]; omega),
    (nodup_keys_entries ht).sublist (List.filter_sublist.map _), ?_⟩
  intro k hk k' hk' hsame
  obtain ⟨⟨_, v⟩, hlisted, rfl⟩ := List.mem_map.1 hk
  obtain ⟨⟨_, v'⟩, hentry, rfl⟩ := List.mem_map.1 hk'
  obtain ⟨-, j, hj, rfl⟩ := mem_listedFrom.1 hlisted
  obtain ⟨p, hp⟩ := Array.mem_iff_getElem?.1 (Array.mem_toList_iff.1 (List.mem_filter.1 hentry).1)
  rw [List.getElem?_drop, Array.getElem?_toList] at hj
  have hplace : t.listPlace? (.int (.ofNat (n + 1 + j))) = some (n + j) :=
    (listPlace?_eq_some hfits).2
      ⟨(Array.getElem?_eq_some_iff.1 hj).1, by rw [Nat.add_right_comm]⟩
  rw [show Value.int (.ofNat (n + 1 + j)) = _ from hsame,
    ht.unlisted (keyAt_eq_some.2 ⟨_, hp⟩)] at hplace
  cases hplace

/-- **The traversal meets each key once.** -/
theorem nodup_keys (ht : t.Valid) : (t.toList.map (·.1)).Nodup := by
  rw [toList_eq]
  exact nodup_keys_rest ht (by decide)

/-! ## Writing -/

theorem valid_of_no_entries {list : Array Value} (h : list.size < Nat.pow 2 63) (room : Nat)
    (meta? : Option Nat) : (Table.mk list #[] .empty room meta?).Valid :=
  ⟨KeyIndex.valid_empty, fun _ _ => ⟨nofun, nofun⟩, nofun, nofun, h⟩

theorem valid_empty : empty.Valid := valid_of_no_entries (by decide) 0 none

theorem valid_withRoom {n : Nat} (h : n < Nat.pow 2 63) (m : Nat) : (withRoom n m).Valid :=
  valid_of_no_entries (by rwa [Array.size_replicate]) _ none

theorem Valid.setMeta (h : t.Valid) (meta? : Option Nat) : { t with meta? }.Valid :=
  ⟨h.index, h.places, h.stored, h.unlisted, h.fits⟩

/-- A value is put in its place in the list part. -/
theorem Valid.setListed (h : t.Valid) {j : Nat} (hj : t.listPlace? k = some j) (v : Value) :
    let u := { t with list := t.list.setIfInBounds j v }
    u.Valid ∧ ∀ k', u.get k' = if k' = k then v else t.get k' := by
  intro u
  have hsize : u.list.size = t.list.size := Array.size_setIfInBounds
  have hplace : u.listPlace? = t.listPlace? := funext fun k => listPlace?_congr hsize k
  obtain ⟨hlt, rfl⟩ := (listPlace?_eq_some h.fits).1 hj
  refine ⟨⟨h.index, h.places, h.stored, fun hp => hplace ▸ h.unlisted hp, hsize ▸ h.fits⟩, fun k' => ?_⟩
  rw [get, get, hplace]
  cases hk' : t.listPlace? k' with
  | none =>
    have hne : k' ≠ .int (.ofNat (j + 1)) := fun hk => by rw [hk, hj] at hk'; cases hk'
    rw [if_neg hne]
  | some j' =>
    obtain ⟨hlt', rfl⟩ := (listPlace?_eq_some h.fits).1 hk'
    have hfits := h.fits
    have hkey : Value.int (.ofNat (j' + 1)) = .int (.ofNat (j + 1)) ↔ j' = j :=
      ⟨fun hk => by have := int_ofNat_inj (by omega) (by omega) hk; omega, fun hk => hk ▸ rfl⟩
    simp only [hkey]
    rw [Array.getD_eq_getD_getElem?, Array.getD_eq_getD_getElem?, Array.getElem?_setIfInBounds]
    by_cases hjj : j = j'
    · subst hjj
      simp [hlt]
    · rw [if_neg hjj, if_neg (Ne.symm hjj)]

/-- A value is written into an entry. -/
theorem Valid.setEntry (h : t.Valid) {p : Nat} (hp : t.index.find? k = some p) (v : Value) :
    let u := { t with entries := t.entries.modify p fun e => (e.1, v) }
    u.Valid ∧ ∀ k', u.get k' = if k' = k then v else t.get k' := by
  intro u
  have hkey := (h.places k p).1 hp
  have hentries (q : Nat) :
      u.entries[q]? = if p = q then t.entries[q]?.map fun e => (e.1, v) else t.entries[q]? :=
    Array.getElem?_modify
  have hkeys : u.keyAt = t.keyAt := by
    funext q
    rw [keyAt, hentries, keyAt]
    split
    · rw [Option.map_map]; rfl
    · rfl
  refine ⟨⟨h.index, hkeys ▸ h.places, hkeys ▸ h.stored, hkeys ▸ h.unlisted, h.fits⟩, fun k' => ?_⟩
  rw [get, get, show u.listPlace? = t.listPlace? from rfl, show u.index = t.index from rfl]
  cases hj : t.listPlace? k' with
  | some j =>
    have hne : k' ≠ k := fun hk => by rw [hk, h.unlisted hkey] at hj; cases hj
    rw [if_neg hne]
  | none =>
    cases hq : t.index.find? k' with
    | none =>
      have hne : k' ≠ k := fun hk => by rw [hk, hp] at hq; cases hq
      rw [if_neg hne]
    | some q =>
      have hqk := (h.places k' q).1 hq
      dsimp only
      rw [Array.getD_eq_getD_getElem?, Array.getD_eq_getD_getElem?, hentries]
      by_cases hk : k' = k
      · subst hk
        obtain rfl := h.eq_of_key hkey hqk
        obtain ⟨w, hw⟩ := keyAt_eq_some.1 hkey
        rw [if_pos rfl, if_pos rfl, hw]
        rfl
      · have hne : p ≠ q := fun hpq => hk (by subst hpq; rw [hkey] at hqk; exact (Option.some.inj hqk).symm)
        rw [if_neg hk, if_neg hne]

/-- A value is written under a key that has no place. -/
theorem Valid.push (h : t.Valid) (hk : k.key? = some k) (hj : t.listPlace? k = none)
    (hnew : t.index.find? k = none) (v : Value) :
    (t.push k v).Valid ∧ ∀ k', (t.push k v).get k' = if k' = k then v else t.get k' := by
  have hfind (k' : Value) : (t.push k v).index.find? k' =
      if k' = k then some t.entries.size else t.index.find? k' :=
    KeyIndex.find?_insert h.index hnew _ k'
  have hplace : (t.push k v).listPlace? = t.listPlace? := rfl
  have hkeyAt (p : Nat) : (t.push k v).keyAt p =
      if p = t.entries.size then some k else t.keyAt p := by
    rw [keyAt, show (t.push k v).entries = t.entries.push (k, v) from rfl, Array.getElem?_push]
    split <;> rfl
  have hlast : t.keyAt t.entries.size = none := by
    rw [keyAt, Array.getElem?_eq_none (Nat.le_refl _)]; rfl
  have hkey {p : Nat} {k' : Value} (hp : (t.push k v).keyAt p = some k') :
      k' = k ∨ t.keyAt p = some k' := by
    rw [hkeyAt] at hp
    split at hp
    · exact .inl (Option.some.inj hp).symm
    · exact .inr hp
  refine ⟨⟨(h.index.insert hnew _).1, fun k' p => ?_, fun hp => ?_, fun hp => ?_, h.fits⟩, fun k' => ?_⟩
  · rw [hfind, hkeyAt]
    by_cases hkk : k' = k <;> by_cases hp : p = t.entries.size
    · simp [hkk, hp]
    · subst hkk
      have hnone : t.keyAt p ≠ some k' := fun he => by
        rw [(h.places k' p).2 he] at hnew; cases hnew
      simp [hp, hnone, Ne.symm hp]
    · subst hp
      have hnone : t.index.find? k' ≠ some t.entries.size := fun he => by
        rw [(h.places k' _).1 he] at hlast; cases hlast
      simp [hkk, Ne.symm hkk, hnone]
    · simp [hkk, hp, h.places]
  · rcases hkey hp with rfl | hp
    · exact hk
    · exact h.stored hp
  · rw [hplace]
    rcases hkey hp with rfl | hp
    · exact hj
    · exact h.unlisted hp
  · rw [get, get, hplace, hfind]
    by_cases hkk : k' = k
    · subst hkk
      simp only [hj, if_pos]
      rw [Array.getD_eq_getD_getElem?, show (t.push k' v).entries = t.entries.push (k', v) from rfl,
        Array.getElem?_push_size]
      rfl
    · rw [if_neg hkk, if_neg hkk]
      cases hj' : t.listPlace? k' with
      | some j => rfl
      | none =>
        cases hp : t.index.find? k' with
        | none => rfl
        | some p =>
          obtain ⟨w, hw⟩ := keyAt_eq_some.1 ((h.places k' p).1 hp)
          have hlt := (Array.getElem?_eq_some_iff.1 hw).1
          dsimp only
          rw [Array.getD_eq_getD_getElem?, Array.getD_eq_getD_getElem?,
            show (t.push k v).entries = t.entries.push (k, v) from rfl, Array.getElem?_push,
            if_neg (Nat.ne_of_lt hlt)]

/-! ## Growing -/

/-- No entry is erased. -/
def Dense (t : Table) : Prop :=
  ∀ (p : Nat) (k v : Value), t.entries[p]? = some (k, v) → v ≠ .nil

theorem dense_of_no_entries (list : Array Value) (room : Nat) (meta? : Option Nat) :
    (Table.mk list #[] .empty room meta?).Dense := fun _ _ _ h => nomatch h

/-- Writes a value under a key that the table does not hold, whatever the room. -/
def put (t : Table) (k v : Value) : Table :=
  match t.listPlace? k with
  | some j => { t with list := t.list.setIfInBounds j v }
  | none => t.push k v

theorem find?_eq_none_of_dense (h : t.Valid) (hd : t.Dense) (hget : t.get k = .nil) :
    t.index.find? k = none := by
  rw [Option.eq_none_iff_forall_ne_some]
  intro p hp
  obtain ⟨v, hv⟩ := keyAt_eq_some.1 ((h.places k p).1 hp)
  exact hd p k v hv ((get_of_entry h hv).symm.trans hget)

theorem Valid.put (h : t.Valid) (hd : t.Dense) (hk : k.key? = some k) (hget : t.get k = .nil)
    (hv : v ≠ .nil) : (t.put k v).Valid ∧ (t.put k v).Dense ∧
      ∀ k', (t.put k v).get k' = if k' = k then v else t.get k' := by
  rw [Table.put]
  cases hj : t.listPlace? k with
  | some j =>
    obtain ⟨hvalid, hget⟩ := h.setListed hj v
    exact ⟨hvalid, hd, hget⟩
  | none =>
    obtain ⟨hvalid, hget⟩ := h.push hk hj (find?_eq_none_of_dense h hd hget) v
    refine ⟨hvalid, fun p k' v' hp => ?_, hget⟩
    rw [show (t.push k v).entries = t.entries.push (k, v) from rfl, Array.getElem?_push] at hp
    split at hp
    · cases hp; exact hv
    · exact hd p k' v' hp

/-- Values are written one after the other. -/
def putAll (t : Table) (es : List (Value × Value)) : Table := es.foldl (fun t e => t.put e.1 e.2) t

theorem putAll_cons (t : Table) (k v : Value) (es : List (Value × Value)) :
    t.putAll ((k, v) :: es) = (t.put k v).putAll es := rfl

theorem Valid.putAll {es : List (Value × Value)} (h : t.Valid) (hd : t.Dense)
    (hn : (es.map (·.1)).Nodup)
    (hall : ∀ k v, (k, v) ∈ es → k.key? = some k ∧ t.get k = .nil ∧ v ≠ .nil) :
    (t.putAll es).Valid ∧ (t.putAll es).Dense ∧
      (∀ k v, (k, v) ∈ es → (t.putAll es).get k = v) ∧
      ∀ k, k ∉ es.map (·.1) → (t.putAll es).get k = t.get k := by
  induction es generalizing t with
  | nil =>
    rw [show t.putAll [] = t from rfl]
    exact ⟨h, hd, fun _ _ hmem => (nomatch hmem), fun _ _ => rfl⟩
  | cons e es ih =>
    obtain ⟨k, v⟩ := e
    rw [List.map_cons, List.nodup_cons] at hn
    obtain ⟨hk, hget, hv⟩ := hall k v List.mem_cons_self
    obtain ⟨hvalid, hdense, hput⟩ := h.put hd hk hget hv
    have hne {k' : Value} (hk' : k' ∈ es.map (·.1)) : k' ≠ k := fun hkk => hn.1 (hkk ▸ hk')
    obtain ⟨hvalid, hdense, hin, hout⟩ := ih hvalid hdense hn.2 fun k' v' hmem => by
      obtain ⟨hk', hget', hv'⟩ := hall k' v' (List.mem_cons_of_mem _ hmem)
      exact ⟨hk', by rw [hput, if_neg (hne (List.mem_map.2 ⟨_, hmem, rfl⟩)), hget'], hv'⟩
    rw [putAll_cons]
    refine ⟨hvalid, hdense, fun k' v' hmem => ?_, fun k' hk' => ?_⟩
    · rcases List.mem_cons.1 hmem with heq | hmem
      · cases heq
        exact (hout k hn.1).trans (by rw [hput, if_pos rfl])
      · exact hin k' v' hmem
    · rw [List.map_cons, List.mem_cons, not_or] at hk'
      exact (hout k' hk'.2).trans (by rw [hput, if_neg hk'.1])

theorem maxSize_lt : Nat.pow 2 27 < Nat.pow 2 63 := by decide

theorem bestSize_le (counts : Array Nat) (total : Nat) : ∀ (fuel b seen : Nat) (best : Nat × Nat),
    b + fuel ≤ 28 → best.1 ≤ Nat.pow 2 27 → (bestSize counts total fuel b seen best).1 ≤ Nat.pow 2 27
  | 0, _, _, _, _, hbest => hbest
  | fuel + 1, b, seen, best, hb, hbest => by
    rw [bestSize]
    split
    · exact hbest
    · refine bestSize_le counts total fuel (b + 1) _ _ (by omega) ?_
      split
      · exact Nat.pow_le_pow_right (by decide) (by omega)
      · exact hbest

/-- What falls out of the list part is written into the entries. -/
theorem foldl_push_listed : ∀ {vs : List Value} {n : Nat} {t : Table}, t.list.size < n →
    n + vs.length ≤ Nat.pow 2 63 →
    (vs.foldl (fun (tn : Table × Nat) v =>
      (if v.isNil then tn.1 else tn.1.push (.int (.ofNat tn.2)) v, tn.2 + 1)) (t, n)).1 =
        t.putAll (listedFrom n vs)
  | [], _, _, _, _ => rfl
  | v :: vs, n, t, hn, hle => by
    rw [List.length_cons] at hle
    rw [List.foldl_cons, listedFrom_cons]
    split
    · exact foldl_push_listed (Nat.lt_succ_of_lt hn) (by omega)
    · have hplace : t.listPlace? (.int (.ofNat n)) = none := by
        rw [Option.eq_none_iff_forall_ne_some]
        intro j hj
        obtain ⟨hlt, hkey⟩ := (listPlace?_eq_some (by omega)).1 hj
        exact absurd (int_ofNat_inj (by omega) (by omega) hkey) (by omega)
      have hput : t.put (.int (.ofNat n)) v = t.push (.int (.ofNat n)) v := by
        rw [put, hplace]
      rw [putAll, List.foldl_cons, hput]
      exact foldl_push_listed (Nat.lt_succ_of_lt hn) (by omega)

theorem foldl_put_entries (es : List (Value × Value)) : ∀ t : Table,
    es.foldl (fun b (e : Value × Value) => if e.2.isNil then b else b.put e.1 e.2) t =
      t.putAll (es.filter fun e => !e.2.isNil) := by
  induction es with
  | nil => exact fun _ => rfl
  | cons e es ih =>
    intro t
    rw [List.foldl_cons, ih, List.filter_cons]
    cases e.2.isNil <;> rfl

/-- The list part with another size, and no entries. -/
def resized (t : Table) (size room : Nat) : Table :=
  ⟨t.list.extract 0 size ++ Array.replicate (size - t.list.size) .nil, #[], .empty, room, t.meta?⟩

theorem size_resized (t : Table) (size room : Nat) : (t.resized size room).list.size = size := by
  rw [resized, Array.size_append, Array.size_extract, Array.size_replicate]
  omega

/-- **A table grows** by writing what does not fit into the new list part anew. -/
theorem rehash_eq (h : t.Valid) (new : Value) : ∃ size room, size ≤ Nat.pow 2 27 ∧
    t.rehash new = (t.resized size room).putAll (t.rest size) := by
  have hfits := h.fits
  unfold rehash
  dsimp only
  generalize hbest : bestSize _ _ 28 0 0 (0, 0) = best
  have hsize : best.1 ≤ Nat.pow 2 27 := hbest ▸ bestSize_le _ _ 28 0 0 (0, 0) (by decide) (by decide)
  generalize powerOfTwo _ = room
  refine ⟨best.1, room, hsize, ?_⟩
  have hdrop : (t.list.extract best.1 t.list.size).toList = t.list.toList.drop best.1 := by
    rw [Array.toList_extract, List.extract_eq_take_drop, List.take_of_length_le (by simp)]
  have hlt : (t.resized best.1 room).list.size < best.1 + 1 := by rw [size_resized]; omega
  have hle : best.1 + 1 + (t.list.toList.drop best.1).length ≤ Nat.pow 2 63 := by
    have := maxSize_lt
    rw [List.length_drop, Array.length_toList]
    omega
  have hlisted := foldl_push_listed hlt hle
  rw [rest, putAll, List.foldl_append]
  change _ = putAll (putAll _ _) _
  rw [← hlisted, ← hdrop, Array.foldl_toList, ← foldl_put_entries, Array.foldl_toList]
  rfl

theorem valid_resized (t : Table) {size : Nat} (h : size ≤ Nat.pow 2 27) (room : Nat) :
    (t.resized size room).Valid := by
  have hsize := Nat.le_trans (Nat.le_of_eq (size_resized t size room)) h
  exact valid_of_no_entries (Nat.lt_of_le_of_lt hsize maxSize_lt) _ _

theorem getD_resized (t : Table) {size j : Nat} (hj : j < size) (room : Nat) :
    (t.resized size room).list.getD j .nil = t.list.getD j .nil := by
  simp only [resized, Array.getD_eq_getD_getElem?, Array.getElem?_append, Array.size_extract,
    Array.getElem?_replicate]
  by_cases hlt : j < t.list.size
  · have hmin : j < min size t.list.size - 0 := by omega
    rw [if_pos hmin, Array.getElem?_extract, if_pos hmin, Nat.zero_add]
  · have hmin : ¬j < min size t.list.size - 0 := by omega
    rw [if_neg hmin, Array.getElem?_eq_none (by omega)]
    split <;> rfl

/-- A table keeps what fits into the new list part. -/
theorem get_resized (h : t.Valid) {size : Nat} (hsize : size ≤ Nat.pow 2 27) (room : Nat) (k : Value) :
    (∃ j < size, t.listPlace? k = some j) ∧ (t.resized size room).get k = t.get k ∨
      (∀ j < size, t.listPlace? k ≠ some j) ∧ (t.resized size room).get k = .nil := by
  have hplaces {j : Nat} := listPlace?_eq_some (k := k) (j := j) (valid_resized t hsize room).fits
  rw [size_resized] at hplaces
  by_cases hk : ∃ j < size, t.listPlace? k = some j
  · obtain ⟨j, hj, hk⟩ := hk
    obtain ⟨hlt, hkey⟩ := (listPlace?_eq_some h.fits).1 hk
    refine .inl ⟨⟨j, hj, hk⟩, ?_⟩
    rw [get_of_listPlace? (hplaces.2 ⟨hj, hkey⟩), get_of_listPlace? hk, getD_resized t hj]
  · refine .inr ⟨fun j hj hk' => hk ⟨j, hj, hk'⟩, ?_⟩
    cases hj : (t.resized size room).listPlace? k with
    | none => rw [get, hj]; rfl
    | some j =>
      obtain ⟨hlt, hkey⟩ := hplaces.1 hj
      have hout : ¬j < t.list.size := fun hin =>
        hk ⟨j, hlt, (listPlace?_eq_some h.fits).2 ⟨hin, hkey⟩⟩
      rw [get_of_listPlace? hj, getD_resized t hlt, Array.getD_eq_getD_getElem?,
        Array.getElem?_eq_none (Nat.le_of_not_lt hout)]
      rfl

/-- **A table that grows holds what it held.** -/
theorem Valid.rehash (h : t.Valid) (new : Value) :
    (t.rehash new).Valid ∧ (t.rehash new).Dense ∧ (t.rehash new).get = t.get := by
  obtain ⟨size, room, hsize, heq⟩ := rehash_eq h new
  rw [heq]
  have hrest {k v : Value} (hmem : (k, v) ∈ t.rest size) : t.get k = v ∧ v ≠ .nil := by
    obtain ⟨hv, ⟨j, -, hj⟩ | hp⟩ := (mem_rest h).1 hmem
    · exact ⟨Holds.get h (.inl ⟨j, hj⟩), hv⟩
    · exact ⟨Holds.get h (.inr hp), hv⟩
  obtain ⟨hvalid, hdense, hin, hout⟩ := (valid_resized t hsize room).putAll
    (dense_of_no_entries _ _ _) (nodup_keys_rest h (Nat.lt_of_le_of_lt hsize maxSize_lt)) fun k v hmem => by
      obtain ⟨hget, hv⟩ := hrest hmem
      refine ⟨key?_of_get h (hget.symm ▸ hv), ?_, hv⟩
      rcases get_resized h hsize room k with ⟨⟨j, hj, hk⟩, -⟩ | ⟨-, hnil⟩
      · obtain ⟨-, ⟨j', hle, hk', -⟩ | ⟨p, hp⟩⟩ := (mem_rest h).1 hmem
        · rw [hk] at hk'; cases hk'; omega
        · rw [h.unlisted (keyAt_eq_some.2 ⟨v, hp⟩)] at hk; cases hk
      · exact hnil
  refine ⟨hvalid, hdense, funext fun k => ?_⟩
  by_cases hk : k ∈ (t.rest size).map (·.1)
  · obtain ⟨⟨_, v⟩, hmem, rfl⟩ := List.mem_map.1 hk
    exact (hin _ v hmem).trans (hrest hmem).1.symm
  · rw [hout k hk]
    rcases get_resized h hsize room k with ⟨-, hsame⟩ | ⟨hfar, hnil⟩
    · exact hsame
    · rw [hnil]
      by_contra hne
      have hne : t.get k ≠ .nil := Ne.symm hne
      refine hk (List.mem_map.2 ⟨(k, t.get k), (mem_rest h).2 ⟨hne, ?_⟩, rfl⟩)
      rcases holds_get h hne with ⟨j, hj, hv⟩ | hp
      · exact .inl ⟨j, Nat.le_of_not_lt fun hlt => hfar j hlt hj, hj, hv⟩
      · exact .inr hp

theorem Valid.insertNew (h : t.Valid) (hk : k.key? = some k) (hj : t.listPlace? k = none)
    (hnew : t.index.find? k = none) (v : Value) :
    (t.insertNew k v).Valid ∧ ∀ k', (t.insertNew k v).get k' = if k' = k then v else t.get k' := by
  have hnil : t.get k = .nil := by rw [get, hj, hnew]
  rw [Table.insertNew]
  split
  · rename_i hv
    rw [Value.isNil_iff] at hv
    refine ⟨h, fun k' => ?_⟩
    split
    · rename_i hkk; rw [hkk, hnil, hv]
    · rfl
  · rename_i hv
    rw [Bool.not_eq_true, Value.isNil_eq_false_iff] at hv
    split
    · exact h.push hk hj hnew v
    · obtain ⟨hvalid, hdense, hget⟩ := h.rehash k
      obtain ⟨hvalid, -, hput⟩ := hvalid.put hdense hk (by rw [hget, hnil]) hv
      exact ⟨hvalid, fun k' => (hput k').trans (by rw [hget])⟩

/-- **Writing under a key changes what is found under it**, and nothing else. -/
theorem Valid.set (h : t.Valid) (hk : k.key? = some k) (v : Value) :
    (t.set k v).Valid ∧ ∀ k', (t.set k v).get k' = if k' = k then v else t.get k' := by
  rw [Table.set]
  cases hj : t.listPlace? k with
  | some j => exact h.setListed hj v
  | none =>
    cases hp : t.index.find? k with
    | some p => exact h.setEntry hp v
    | none => exact h.insertNew hk hj hp v

end Table
end Reactor.Lua
