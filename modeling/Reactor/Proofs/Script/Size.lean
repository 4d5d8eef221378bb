/-
  The size of a result.

  A heap is a graph, what it is converted to is a tree: a table that is reached
  on several ways is converted for each of them.

  * `Json.members` counts what is in lists and objects, in all depths;
  * `routes` are the ways from a table to those under it; `mem_routes`: they are
    what keys lead along;
  * `members_of_jsonOfTable`: what a table is converted to has the entries of the
    table at the end of each way;
  * `entriesUnder` counts the entries of all tables under a table once;
    `members_le_entriesUnder_iff`: when the JSON has no more members than that.
-/
import Mathlib.Algebra.BigOperators.Group.Finset.Basic
import Mathlib.Algebra.Order.BigOperators.Group.Finset
import Mathlib.Data.Set.Card
import Reactor.Proofs.Script.Course

namespace Reactor

namespace Json

mutual

/-- How many items and fields are in some JSON, in all depths. -/
def members : Json → Nat
  | .arr items => itemsMembers items
  | .obj fields => fieldsMembers fields
  | _ => 0

/-- The items of a list, and what is in them. -/
def itemsMembers : List Json → Nat
  | [] => 0
  | j :: items => j.members + 1 + itemsMembers items

/-- The fields of an object, and what is in them. -/
def fieldsMembers : List (String × Json) → Nat
  | [] => 0
  | (_, j) :: fields => j.members + 1 + fieldsMembers fields

end

theorem members_arr (items : List Json) :
    (Json.arr items).members = (items.map fun j => j.members + 1).sum := by
  rw [members]
  induction items with
  | nil => rfl
  | cons j items ih => rw [itemsMembers, ih, List.map_cons, List.sum_cons]

theorem members_obj (fields : Fields Json) :
    (Json.obj fields).members = (fields.map fun f => f.2.members + 1).sum := by
  rw [members]
  induction fields with
  | nil => rfl
  | cons f fields ih => rw [fieldsMembers, ih, List.map_cons, List.sum_cons]

end Json

namespace Script

open Lua

variable {h : Heap} {d r s : Nat} {v : Value} {j : Json} {path : List Value}

theorem Plain.members_eq (hp : Plain v j) : j.members = 0 := by cases hp <;> rfl

/-! ## Ways through a heap -/

/-- The ways on from a value, if those from a table are known. -/
def onward (routes : Nat → List (List Value × Nat)) : Value → List (List Value × Nat)
  | .table s => routes s
  | _ => []

/-- The ways from a table to those under it, by less than `d` keys: the keys on
    each way, and the table at its end. -/
def routes (h : Heap) : Nat → Nat → List (List Value × Nat)
  | 0, _ => []
  | d + 1, r => ([], r) :: (h.table r).toList.flatMap fun e =>
      (onward (routes h d) e.2).map fun way => (e.1 :: way.1, way.2)

theorem mem_onward {table : Nat → List (List Value × Nat)} {way : List Value × Nat} :
    way ∈ onward table v ↔ ∃ s, v = .table s ∧ way ∈ table s := by
  cases v with
  | table s => exact ⟨fun hway => ⟨s, rfl, hway⟩, fun ⟨_, hs, hway⟩ => by cases hs; exact hway⟩
  | _ => exact ⟨nofun, fun ⟨_, hs, _⟩ => nomatch hs⟩

/-- **Keys lead along the ways**, and along no others. -/
theorem mem_routes (hh : h.Valid) :
    (path, s) ∈ routes h d r ↔ path.length < d ∧ h.Leads (.table r) path (.table s) := by
  induction d generalizing r path with
  | zero => exact ⟨nofun, fun hp => absurd hp.1 (Nat.not_lt_zero _)⟩
  | succ d ih =>
    rw [routes, List.mem_cons, List.mem_flatMap]
    constructor
    · rintro (hhere | ⟨⟨k, v⟩, he, hway⟩)
      · cases hhere
        exact ⟨Nat.succ_pos d, .here _⟩
      · obtain ⟨⟨path, _⟩, hon, ⟨⟩⟩ := List.mem_map.1 hway
        obtain ⟨t, ht, hon⟩ := mem_onward.1 hon
        obtain ⟨hlt, hleads⟩ := ih.1 hon
        obtain ⟨hget, hne⟩ := (Table.mem_toList (hh r)).1 he
        dsimp only at ht
        rw [← ht, ← hget] at hleads
        exact ⟨Nat.succ_lt_succ hlt, .field (hget ▸ hne) hleads⟩
    · rintro ⟨hlt, hleads⟩
      cases hleads with
      | here => exact .inl rfl
      | @field _ k _ path hk hleads =>
        refine .inr ⟨(k, (h.table r).get k), (Table.mem_toList (hh r)).2 ⟨rfl, hk⟩, ?_⟩
        refine List.mem_map.2 ⟨(path, s), mem_onward.2 ?_, rfl⟩
        cases hv : (h.table r).get k with
        | table t =>
          rw [hv] at hleads
          exact ⟨t, rfl, ih.2 ⟨Nat.lt_of_succ_lt_succ hlt, hleads⟩⟩
        | _ =>
          rw [hv] at hleads
          cases hleads

/-- No way is there twice. -/
theorem nodup_routes (hh : h.Valid) : (routes h d r).Nodup := by
  induction d generalizing r with
  | zero => exact .nil
  | succ d ih =>
    rw [routes, List.nodup_cons, List.mem_flatMap, List.nodup_flatMap]
    refine ⟨?_, fun e _ => ?_, ?_⟩
    · rintro ⟨e, -, hway⟩
      obtain ⟨way, -, hway⟩ := List.mem_map.1 hway
      cases hway
    · refine List.Nodup.map (fun way way' heq => ?_) ?_
      · obtain ⟨hpath, hend⟩ := Prod.mk.inj heq
        exact Prod.ext (List.cons.inj hpath).2 hend
      · cases e.2 with
        | table t => exact ih
        | _ => exact .nil
    · have hkeys := List.pairwise_map.1 (Table.nodup_keys (hh r))
      refine hkeys.imp fun {e e'} hne => ?_
      rw [Function.onFun, List.disjoint_left]
      intro way hway hway'
      obtain ⟨_, -, rfl⟩ := List.mem_map.1 hway
      obtain ⟨_, -, heq⟩ := List.mem_map.1 hway'
      exact hne (List.cons.inj (Prod.mk.inj heq).1).1.symm

/-! ## Members along the ways -/

/-- The number of entries of a table. -/
def entryCount (h : Heap) (r : Nat) : Nat := (h.table r).toList.length

/-- What an entry was converted to. -/
def Converted.json : Converted → Json
  | .inl e => e.2
  | .inr f => f.2

/-- What some entries were converted to, with the members in it. -/
def weigh (xs : List Converted) : Nat := (xs.map fun x => x.json.members + 1).sum

theorem weigh_eq (xs : List Converted) : weigh xs =
    ((xs.filterMap Sum.getLeft?).map fun e => e.2.members + 1).sum +
      ((xs.filterMap Sum.getRight?).map fun f => f.2.members + 1).sum := by
  induction xs with
  | nil => rfl
  | cons x xs ih =>
    rw [weigh, List.map_cons, List.sum_cons, ← weigh, ih]
    cases x with
    | inl e => exact (Nat.add_assoc ..).symm
    | inr f => exact Nat.add_left_comm ..

/-- What entries make up has them as members. -/
theorem members_of_jsonOfSplit {xs : List Converted} (hn : xs.Pairwise fun x y => x.key ≠ y.key)
    (hj : jsonOfSplit (xs.foldl Split.add ⟨[], []⟩) = .ok j) : j.members = weigh xs := by
  have hlisted : (xs.foldl Split.add ⟨[], []⟩).listed.Perm (xs.filterMap Sum.getLeft?) := by
    rw [listed_foldl, List.append_nil]
    exact List.reverse_perm _
  have hdistinct : ((xs.filterMap Sum.getRight?).map (·.1)).Nodup :=
    nodup_filterMap .ofString (fun x e he => by rw [Sum.getRight?_eq_some_iff.1 he]; rfl) hn
  have hnamed : (xs.foldl Split.add ⟨[], []⟩).named.Perm (xs.filterMap Sum.getRight?) := by
    rw [named_foldl]
    exact Fields.perm_foldl_insert hdistinct
  rw [weigh_eq, ← (hlisted.map _).sum_eq, ← (hnamed.map _).sum_eq]
  rcases jsonOfSplit_eq_ok.1 hj with ⟨hnone, rfl⟩ | ⟨-, hnone, -, rfl⟩
  · rw [Json.members_obj, hnone, List.map_nil, List.sum_nil, Nat.zero_add]
  · rw [Json.members_arr, hnone, List.map_nil, List.sum_nil, Nat.add_zero, List.map_map]
    exact ((inOrder_perm _).map _).sum_eq

/-- The entries at the ends of some ways. -/
def entriesAlong (h : Heap) (ways : List (List Value × Nat)) : Nat :=
  (ways.map fun way => entryCount h way.2).sum

theorem entriesAlong_routes_succ : entriesAlong h (routes h (d + 1) r) =
    ((h.table r).toList.map fun e => entriesAlong h (onward (routes h d) e.2) + 1).sum := by
  rw [routes, entriesAlong, List.map_cons, List.sum_cons, entryCount]
  induction (h.table r).toList with
  | nil => rfl
  | cons e es ih =>
    rw [List.flatMap_cons, List.map_append, List.sum_append, List.length_cons, List.map_cons,
      List.sum_cons, ← ih, List.map_map]
    show es.length + 1 + (entriesAlong h (onward (routes h d) e.2) + _) = _
    omega

/-- **The JSON of a table** has the entries of the table at the end of each way. -/
theorem members_of_jsonOfTable (hh : h.Valid) : ∀ {d r : Nat} {j : Json},
    tableToJson h d r = .ok j → j.members = entriesAlong h (routes h d r)
  | 0, _, _, hj => by cases hj
  | d + 1, r, j, hj => by
    have hchild {v : Value} {j : Json} (hj : valueToJson (tableToJson h d) v = .ok j) :
        j.members = entriesAlong h (onward (routes h d) v) := by
      rcases valueToJson_eq_ok.1 hj with ⟨s, rfl, hj⟩ | hp
      · exact members_of_jsonOfTable hh hj
      · rw [hp.members_eq]
        cases hp <;> rfl
    rw [tableToJson, jsonOfTable, jsonOfEntries_eq_ok] at hj
    obtain ⟨xs, hxs, hj⟩ := hj
    have hkeys := Table.nodup_keys (hh r)
    rw [map_key hxs] at hkeys
    rw [members_of_jsonOfSplit (List.pairwise_map.1 hkeys) hj, entriesAlong_routes_succ, weigh]
    clear hj hkeys
    generalize (h.table r).toList = es at hxs
    induction hxs with
    | nil => rfl
    | @cons e x es xs hx _ ih =>
      have hjson : x.json.members = entriesAlong h (onward (routes h d) e.2) := by
        cases hx with
        | listed hj => exact hchild hj
        | named hj => exact hchild hj
      rw [List.map_cons, List.map_cons, List.sum_cons, List.sum_cons, ih, hjson]

/-! ## Entries counted once -/

/-- The tables that keys lead to from a table, itself among them. -/
def tablesUnder (h : Heap) (r : Nat) : Finset Nat :=
  ((routes h maxResultDepth r).map (·.2)).toFinset

/-- The entries of these tables, those of each table counted once. -/
def entriesUnder (h : Heap) (r : Nat) : Nat := ∑ s ∈ tablesUnder h r, entryCount h s

/-- The number of ways from a table to another. -/
noncomputable def waysTo (h : Heap) (r s : Nat) : Nat :=
  {path | h.Leads (.table r) path (.table s)}.ncard

/-- The ways from a table to another, as far as they are not too long. -/
def routesTo (h : Heap) (r s : Nat) : List (List Value) :=
  ((routes h maxResultDepth r).filter (·.2 == s)).map (·.1)

theorem mem_routesTo (hh : h.Valid) (hc : Convertible h maxResultDepth (.table r)) :
    path ∈ routesTo h r s ↔ h.Leads (.table r) path (.table s) := by
  have hends : path ∈ routesTo h r s ↔ (path, s) ∈ routes h maxResultDepth r := by
    simp [routesTo]
  rw [hends, mem_routes hh]
  exact and_iff_right_of_imp (hc.shallow path s)

theorem nodup_routesTo (hh : h.Valid) : (routesTo h r s).Nodup := by
  refine List.Nodup.map_on (fun way hway way' hway' hpath => ?_) ((nodup_routes hh).filter _)
  have hend := (List.mem_filter.1 hway).2
  have hend' := (List.mem_filter.1 hway').2
  exact Prod.ext hpath ((beq_iff_eq.1 hend).trans (beq_iff_eq.1 hend').symm)

theorem waysTo_eq (hh : h.Valid) (hc : Convertible h maxResultDepth (.table r)) :
    {path | h.Leads (.table r) path (.table s)} = (routesTo h r s).toFinset ∧
      waysTo h r s = ((routes h maxResultDepth r).map (·.2)).count s := by
  have hset : {path | h.Leads (.table r) path (.table s)} = (routesTo h r s).toFinset := by
    ext path
    simp [mem_routesTo hh hc]
  refine ⟨hset, ?_⟩
  rw [waysTo, hset, Set.ncard_coe_finset, List.toFinset_card_of_nodup (nodup_routesTo hh),
    routesTo, List.length_map, List.count_eq_countP, List.countP_map, List.countP_eq_length_filter]
  rfl

theorem mem_tablesUnder (hh : h.Valid) (hc : Convertible h maxResultDepth (.table r)) :
    s ∈ tablesUnder h r ↔ ∃ path, h.Leads (.table r) path (.table s) := by
  rw [tablesUnder, List.mem_toFinset, List.mem_map]
  constructor
  · rintro ⟨⟨path, _⟩, hway, rfl⟩
    exact ⟨path, ((mem_routes hh).1 hway).2⟩
  · rintro ⟨path, hleads⟩
    exact ⟨(path, s), (mem_routes hh).2 ⟨hc.shallow path s hleads, hleads⟩, rfl⟩

theorem waysTo_pos (hh : h.Valid) (hc : Convertible h maxResultDepth (.table r))
    (hs : s ∈ tablesUnder h r) : 1 ≤ waysTo h r s := by
  rw [(waysTo_eq hh hc).2]
  exact List.one_le_count_iff.2 (List.mem_toFinset.1 hs)

/-- There is one way to a table if there are no two. -/
theorem waysTo_eq_one (hh : h.Valid) (hc : Convertible h maxResultDepth (.table r))
    (hs : s ∈ tablesUnder h r) : waysTo h r s = 1 ↔
      ∀ path path', h.Leads (.table r) path (.table s) → h.Leads (.table r) path' (.table s) →
        path = path' := by
  have hfinite : {path | h.Leads (.table r) path (.table s)}.Finite := by
    rw [(waysTo_eq hh hc).1]
    exact Finset.finite_toSet _
  have hle : waysTo h r s ≤ 1 ↔ waysTo h r s = 1 :=
    ⟨fun hle => Nat.le_antisymm hle (waysTo_pos hh hc hs), Nat.le_of_eq⟩
  rw [← hle, waysTo, Set.ncard_le_one_iff hfinite]
  rfl

/-- **The members of the JSON** are the entries of all tables, each as often as
    there are ways to it. -/
theorem members_eq_sum (hh : h.Valid) (hc : Convertible h maxResultDepth (.table r))
    (hj : tableToJson h maxResultDepth r = .ok j) :
    j.members = ∑ s ∈ tablesUnder h r, waysTo h r s * entryCount h s := by
  have hends : entriesAlong h (routes h maxResultDepth r) =
      (((routes h maxResultDepth r).map (·.2)).map (entryCount h)).sum := by
    rw [entriesAlong, List.map_map]
    rfl
  rw [members_of_jsonOfTable hh hj, hends, Finset.sum_list_map_count]
  exact Finset.sum_congr rfl fun s _ => congrArg (· * entryCount h s) (waysTo_eq hh hc).2.symm

/-- **A result is as large as its tables** just if no two ways lead to a table with
    entries; otherwise it is larger. -/
theorem members_le_entriesUnder_iff (hh : h.Valid) {next : String} {input : Payload}
    (hok : resultInput h next v = .ok input) :
    ∃ r, v = .table r ∧
      (∀ s, s ∈ tablesUnder h r ↔ ∃ path, h.Leads (.table r) path (.table s)) ∧
      (Json.obj input).members = ∑ s ∈ tablesUnder h r, waysTo h r s * entryCount h s ∧
      entriesUnder h r ≤ (Json.obj input).members ∧
      ((Json.obj input).members ≤ entriesUnder h r ↔
        ∀ s path path', entryCount h s ≠ 0 → h.Leads (.table r) path (.table s) →
          h.Leads (.table r) path' (.table s) → path = path') := by
  obtain ⟨r, rfl, hj⟩ := resultInput_eq_ok hok
  have hc : Convertible h maxResultDepth (.table r) :=
    ((jsonOfTable_eq_ok hh fun r => .refl _).1 hj).2
  have hle : ∀ s ∈ tablesUnder h r, entryCount h s ≤ waysTo h r s * entryCount h s :=
    fun s hs => Nat.le_mul_of_pos_left _ (waysTo_pos hh hc hs)
  have hmembers := members_eq_sum hh hc hj
  have hsum : entriesUnder h r ≤ (Json.obj input).members :=
    hmembers ▸ Finset.sum_le_sum hle
  refine ⟨r, rfl, fun s => mem_tablesUnder hh hc, hmembers, hsum, ?_⟩
  have heq : (Json.obj input).members ≤ entriesUnder h r ↔
      ∀ s ∈ tablesUnder h r, entryCount h s = waysTo h r s * entryCount h s := by
    rw [← Finset.sum_eq_sum_iff_of_le hle, ← hmembers]
    exact ⟨Nat.le_antisymm hsum, Nat.le_of_eq ∘ Eq.symm⟩
  rw [heq]
  constructor
  · intro hall s path path' hne hleads hleads'
    have hs := (mem_tablesUnder hh hc).2 ⟨path, hleads⟩
    have hone := (Nat.mul_eq_right hne).1 (hall s hs).symm
    exact (waysTo_eq_one hh hc hs).1 hone path path' hleads hleads'
  · intro hall s hs
    by_cases hne : entryCount h s = 0
    · rw [hne, Nat.mul_zero]
    · rw [(waysTo_eq_one hh hc hs).2 fun path path' => hall s path path' hne, Nat.one_mul]

/-- Fields with tables of their own: a result as large as its tables. -/
theorem members_le_entriesUnder_iff_own :
    let top := (Table.empty.setText "left" (.table 1)).setText "right" (.table 2)
    let door := Table.empty.setText "open" (.bool true)
    let h : Heap := { Heap.standard 0 with tables := #[top, door, door] }
    let input : Payload := [("left", .obj [("open", .bool true)]), ("right", .obj [("open", .bool true)])]
    h.Valid ∧ resultInput h "x" (.table 0) = .ok input ∧ (Json.obj input).members = 4 ∧
      ∀ s path path', entryCount h s ≠ 0 → h.Leads (.table 0) path (.table s) →
        h.Leads (.table 0) path' (.table s) → path = path' := by
  intro top door h input
  have hempty := Table.valid_empty
  have hh : h.Valid := by
    refine Heap.valid_of_forall_mem fun t ht => ?_
    simp only [h, List.mem_toArray, List.mem_cons, List.not_mem_nil, or_false] at ht
    rcases ht with rfl | rfl | rfl
    · exact (hempty.setText _ _).setText _ _
    · exact hempty.setText _ _
    · exact hempty.setText _ _
  have hok : resultInput h "x" (.table 0) = .ok input := rfl
  have hentries : entriesUnder h 0 = 4 := by decide +kernel
  obtain ⟨r, hr, -, -, -, hiff⟩ := members_le_entriesUnder_iff hh hok
  cases hr
  exact ⟨hh, hok, rfl, hiff.1 (Nat.le_of_eq hentries.symm)⟩

/-! ## Entries of a script -/

/-- The entries of the tables under the result of a script. -/
def entriesBuilt (limits : Limits) (event : Payload) (prior : Option Payload) (source : String) :
    Option Nat :=
  (ended limits event prior source).bind fun m =>
    match resultOf m with
    | (m, .ok (.table r)) => some (entriesUnder m.heap r)
    | _ => none

/-- The members of the input that a decision hands to the next step. -/
def membersHanded : Except ScriptError Decision → Option Nat
  | .ok (.continue_ _ input) => some (Json.obj input).members
  | _ => none

/-- What is handed to the next step is the result, in the heap that a script has
    left. -/
theorem entriesBuilt_of_evaluate {limits : Limits} {event : Payload} {prior : Option Payload}
    {source next : String} {input : Payload}
    (hd : evaluate limits event prior source = .ok (.continue_ next input)) :
    ∃ (h : Heap) (r : Nat), entriesBuilt limits event prior source = some (entriesUnder h r) ∧
      resultInput h next (.table r) = .ok input := by
  obtain ⟨m, v, hended, hv, hinput⟩ := evaluate_eq_continue hd
  obtain ⟨r, rfl, -⟩ := resultInput_eq_ok hinput
  refine ⟨(resultOf m).1.heap, r, ?_, hinput⟩
  rcases hresult : resultOf m with ⟨last, result⟩
  rw [hresult] at hv
  cases hv
  rw [entriesBuilt, hended, Option.bind_some, hresult]

/-- A script whose four tables hold the one before twice each: eight entries are
    handed on as thirty members. -/
theorem membersHanded_doubled :
    let source :=
      "local t = \x7b\x7d for i = 1, 4 do t = \x7ba = t, b = t\x7d end nextAction = 'x' result = t"
    entriesBuilt .standard [] none source = some 8 ∧
      membersHanded (evaluate .standard [] none source) = some 30 := by
  decide +kernel

end Script

end Reactor
