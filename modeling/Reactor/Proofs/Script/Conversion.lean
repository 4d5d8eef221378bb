/-
  The result of a script, converted.

  * `jsonOfEntries_eq_ok`: when the entries of a table make up some JSON;
  * `Splits` and `Divides`: entries, and a table, taken apart into what is under
    numbers and what is under names;
  * `depicts_of_jsonOfTable`: what a table is converted to is its tree;
    `exists_jsonOfTable`: what can be converted is converted;
  * `jsonOfTable_eq_ok` and `jsonOfTable_exact` put that together, for entries in
    any order.
-/
import Reactor.Proofs.Except
import Reactor.Proofs.Script.Unfolding
import Reactor.Proofs.Text.Order

namespace Reactor

theorem Text.Utf8.decode_eq_ok {s : ByteArray} {t : String} :
    Text.Utf8.decode s = .ok t ↔ s = t.toUTF8 := by
  rw [← fromUTF8?_eq_some, decode]
  cases String.fromUTF8? s with
  | some u => simp
  | none => simp

namespace Script

open Lua

variable {h : Heap} {d r : Nat} {v w : Value} {j : Json}

theorem plainToJson_num (x : Float) : plainToJson (.num x) =
    if Decimal.isFinite x then .ok (.float x) else .error (.notFinite x) := rfl

theorem plainToJson_str (s : Bytes) : plainToJson (.str s) =
    match Text.Utf8.decode s with
    | .ok t => .ok (.str t)
    | .error f => .error (.stringNotText f) := rfl

theorem plainToJson_eq_ok : plainToJson v = .ok j ↔ Plain v j := by
  constructor
  · intro hj
    cases v with
    | bool b => cases hj; exact .bool b
    | int i => cases hj; exact .int i
    | num x =>
      rw [plainToJson_num] at hj
      split at hj
      · rename_i hx; cases hj; exact .num x hx
      · cases hj
    | str s =>
      rw [plainToJson_str] at hj
      split at hj
      · rename_i ht
        cases hj
        rw [Text.Utf8.decode_eq_ok] at ht
        exact ht ▸ .str _
      · cases hj
    | null => cases hj; exact .null
    | _ => cases hj
  · intro hp
    cases hp with
    | num x hx => rw [plainToJson_num, if_pos hx]
    | str s => rw [Value.ofString, plainToJson_str, Text.Utf8.decode_eq_ok.2 rfl]
    | _ => rfl

theorem valueToJson_eq_ok {table : Nat → Except ContractFault Json} :
    valueToJson table v = .ok j ↔ (∃ r, v = .table r ∧ table r = .ok j) ∨ Plain v j := by
  rw [← plainToJson_eq_ok]
  cases v with
  | table r =>
    refine ⟨fun hj => .inl ⟨r, rfl, hj⟩, ?_⟩
    rintro (⟨r, hr, hj⟩ | hj)
    · cases hr; exact hj
    · cases hj
  | _ =>
    refine ⟨.inr, ?_⟩
    rintro (⟨r, hr, hj⟩ | hj)
    · cases hr
    · exact hj

/-! ## Entries -/

/-- An entry of a list, or of an object. -/
abbrev Converted := Int × Json ⊕ String × Json

/-- An entry of a table is converted to one of a list or of an object. -/
inductive Converts (convert : Value → Except ContractFault Json) : Value × Value → Converted → Prop
  | listed {i : Int64} {v : Value} {j : Json} :
      convert v = .ok j → Converts convert (.int i, v) (.inl (i.toInt, j))
  | named {s : String} {v : Value} {j : Json} :
      convert v = .ok j → Converts convert (.ofString s, v) (.inr (s, j))

/-- Adds a converted entry to those before it. -/
def Split.add (s : Split) : Converted → Split
  | .inl e => { s with listed := e :: s.listed }
  | .inr f => { s with named := s.named.insert f.1 f.2 }

variable {convert : Value → Except ContractFault Json}

theorem addEntry_eq_ok {s s' : Split} {e : Value × Value} :
    addEntry convert s e = .ok s' ↔ ∃ x, Converts convert e x ∧ s' = s.add x := by
  obtain ⟨k, v⟩ := e
  constructor
  · intro hadd
    unfold addEntry at hadd
    split at hadd
    · obtain ⟨j, hj, hs⟩ := Except.bind_eq_ok.1 hadd
      cases hs
      rename_i i hk
      cases (hk : k = .int i)
      exact ⟨_, .listed hj, rfl⟩
    · split at hadd
      · rename_i hk _ t ht
        obtain ⟨j, hj, hs⟩ := Except.bind_eq_ok.1 hadd
        cases hs
        rw [Text.Utf8.decode_eq_ok] at ht
        cases (hk.trans (congrArg Value.str ht) : k = .ofString t)
        exact ⟨_, .named hj, rfl⟩
      · cases hadd
    · cases hadd
  · rintro ⟨x, hx, rfl⟩
    cases hx with
    | listed hj => exact Except.bind_eq_ok.2 ⟨_, hj, rfl⟩
    | named hj =>
      rw [addEntry]
      simp only [Value.ofString, Text.Utf8.decode_eq_ok.2 rfl]
      exact Except.bind_eq_ok.2 ⟨_, hj, rfl⟩

theorem foldlM_addEntry_eq_ok {es : List (Value × Value)} : ∀ {s s' : Split},
    es.foldlM (addEntry convert) s = .ok s' ↔
      ∃ xs, List.Forall₂ (Converts convert) es xs ∧ s' = xs.foldl Split.add s := by
  induction es with
  | nil =>
    intro s s'
    exact ⟨fun h => ⟨[], .nil, (Except.ok.inj h).symm⟩, fun ⟨xs, hxs, hs⟩ => by
      cases hxs; rw [hs]; rfl⟩
  | cons e es ih =>
    intro s s'
    rw [List.foldlM_cons, Except.bind_eq_ok]
    constructor
    · rintro ⟨t, ht, hfold⟩
      obtain ⟨x, hx, rfl⟩ := addEntry_eq_ok.1 ht
      obtain ⟨xs, hxs, rfl⟩ := ih.1 hfold
      exact ⟨x :: xs, .cons hx hxs, rfl⟩
    · rintro ⟨_, hall, rfl⟩
      cases hall with
      | cons hx hxs =>
        exact ⟨_, addEntry_eq_ok.2 ⟨_, hx, rfl⟩, ih.2 ⟨_, hxs, rfl⟩⟩

/-- Entries that are converted make up some JSON. -/
theorem jsonOfEntries_eq_ok {es : List (Value × Value)} : jsonOfEntries convert es = .ok j ↔
    ∃ xs, List.Forall₂ (Converts convert) es xs ∧
      jsonOfSplit (xs.foldl Split.add ⟨[], []⟩) = .ok j := by
  rw [jsonOfEntries, Except.bind_eq_ok]
  constructor
  · rintro ⟨s, hs, hj⟩
    obtain ⟨xs, hxs, rfl⟩ := foldlM_addEntry_eq_ok.1 hs
    exact ⟨xs, hxs, hj⟩
  · rintro ⟨xs, hxs, hj⟩
    exact ⟨_, foldlM_addEntry_eq_ok.2 ⟨xs, hxs, rfl⟩, hj⟩

/-! ## Lists and objects -/

theorem listed_foldl (xs : List Converted) : ∀ s : Split,
    (xs.foldl Split.add s).listed = (xs.filterMap Sum.getLeft?).reverse ++ s.listed := by
  induction xs with
  | nil => exact fun _ => rfl
  | cons x xs ih =>
    intro s
    rw [List.foldl_cons, ih]
    cases x <;> simp [Split.add, List.filterMap_cons]

theorem named_foldl (xs : List Converted) : ∀ s : Split,
    (xs.foldl Split.add s).named =
      (xs.filterMap Sum.getRight?).foldl (fun fs f => fs.insert f.1 f.2) s.named := by
  induction xs with
  | nil => exact fun _ => rfl
  | cons x xs ih =>
    intro s
    rw [List.foldl_cons, ih]
    cases x <;> simp [Split.add, List.filterMap_cons]

/-- The key that an entry had. -/
def Converted.key : Converted → Value
  | .inl e => .int (.ofInt e.1)
  | .inr f => .ofString f.1

theorem Converts.key {e : Value × Value} {x : Converted} (h : Converts convert e x) :
    e.1 = x.key := by
  cases h with
  | listed => exact congrArg Value.int (Int64.ofInt_toInt _).symm
  | named => rfl

theorem map_key {es : List (Value × Value)} {xs : List Converted}
    (hxs : List.Forall₂ (Converts convert) es xs) : es.map (·.1) = xs.map Converted.key := by
  induction hxs with
  | nil => rfl
  | cons hx _ ih => rw [List.map_cons, List.map_cons, hx.key, ih]

theorem exists_mem_of_mem_right {α β : Type} {R : α → β → Prop} {as : List α} {bs : List β} {b : β}
    (h : List.Forall₂ R as bs) (hb : b ∈ bs) : ∃ a ∈ as, R a b := by
  induction h with
  | nil => cases hb
  | cons hr _ ih =>
    rcases List.mem_cons.1 hb with rfl | hb
    · exact ⟨_, List.mem_cons_self, hr⟩
    · obtain ⟨a, ha, hr⟩ := ih hb
      exact ⟨a, List.mem_cons_of_mem _ ha, hr⟩

theorem exists_mem_of_mem_left {α β : Type} {R : α → β → Prop} {as : List α} {bs : List β} {a : α}
    (h : List.Forall₂ R as bs) (ha : a ∈ as) : ∃ b ∈ bs, R a b := by
  obtain ⟨b, hb, hr⟩ := exists_mem_of_mem_right h.flip ha
  exact ⟨b, hb, hr⟩

/-- The entries of a table, split. -/
structure Splits (convert : Value → Except ContractFault Json) (es : List (Value × Value))
    (s : Split) : Prop where
  listed : ∀ i j, (i, j) ∈ s.listed ↔ ∃ k v, (.int k, v) ∈ es ∧ i = k.toInt ∧ convert v = .ok j
  distinct : (s.listed.map (·.1)).Nodup
  named : ∀ k j, (k, j) ∈ s.named ↔ ∃ v, (.ofString k, v) ∈ es ∧ convert v = .ok j
  sorted : s.named.Sorted
  all : ∀ k v, (k, v) ∈ es → ((∃ i, k = .int i) ∨ ∃ t, k = .ofString t) ∧ ∃ j, convert v = .ok j

/-- Different keys stay different among the entries of one kind. -/
theorem nodup_filterMap {α : Type} (key : α → Value) {f : Converted → Option (α × Json)}
    (hf : ∀ x e, f x = some e → x.key = key e.1) {xs : List Converted}
    (hn : xs.Pairwise fun x y => x.key ≠ y.key) : ((xs.filterMap f).map (·.1)).Nodup := by
  rw [List.Nodup, List.pairwise_map, List.pairwise_filterMap]
  refine hn.imp fun {x y} hxy e he e' he' heq => hxy ?_
  rw [hf x e he, hf y e' he', heq]

theorem splits_foldl {es : List (Value × Value)} {xs : List Converted}
    (hxs : List.Forall₂ (Converts convert) es xs) (hn : (es.map (·.1)).Nodup) :
    Splits convert es (xs.foldl Split.add ⟨[], []⟩) := by
  rw [map_key hxs, List.Nodup, List.pairwise_map] at hn
  have hdistinct : ((xs.filterMap Sum.getRight?).map (·.1)).Nodup :=
    nodup_filterMap .ofString (fun x e he => by rw [Sum.getRight?_eq_some_iff.1 he]; rfl) hn
  have hsorted : Fields.Sorted (xs.foldl Split.add ⟨[], []⟩).named := by
    rw [named_foldl]
    exact Fields.sorted_foldl_insert .nil
  refine ⟨fun i j => ?_, ?_, fun k j => ?_, hsorted, fun k v he => ?_⟩
  · rw [listed_foldl, List.append_nil, List.mem_reverse, List.mem_filterMap]
    simp only [Sum.getLeft?_eq_some_iff, exists_eq_right]
    constructor
    · intro hmem
      obtain ⟨e, he, hx⟩ := exists_mem_of_mem_right hxs hmem
      cases hx with
      | listed hj => exact ⟨_, _, he, rfl, hj⟩
    · rintro ⟨k, v, he, rfl, hj⟩
      obtain ⟨x, hmem, hx⟩ := exists_mem_of_mem_left hxs he
      cases hx with
      | listed hj' => rw [hj] at hj'; cases hj'; exact hmem
  · rw [listed_foldl, List.append_nil, List.map_reverse, (List.reverse_perm _).nodup_iff]
    exact nodup_filterMap (fun i => .int (.ofInt i))
      (fun x e he => by rw [Sum.getLeft?_eq_some_iff.1 he]; rfl) hn
  · rw [hsorted.mem_iff, named_foldl, Fields.get?_foldl_insert hdistinct, List.mem_filterMap]
    simp only [Sum.getRight?_eq_some_iff, exists_eq_right, Fields.get?_nil, reduceCtorEq, and_false,
      or_false]
    constructor
    · intro hmem
      obtain ⟨e, he, hx⟩ := exists_mem_of_mem_right hxs hmem
      cases hx with
      | named hj => exact ⟨_, he, hj⟩
    · rintro ⟨v, he, hj⟩
      obtain ⟨x, hmem, hx⟩ := exists_mem_of_mem_left hxs he
      generalize hentry : (Value.ofString k, v) = e at hx
      cases hx with
      | listed => cases hentry
      | named hj' =>
        obtain ⟨hk, rfl⟩ := Prod.mk.inj hentry
        rw [hj] at hj'
        cases hj'
        rwa [Value.ofString_inj.1 hk]
  · obtain ⟨x, -, hx⟩ := exists_mem_of_mem_left hxs he
    cases hx with
    | listed hj => exact ⟨.inl ⟨_, rfl⟩, _, hj⟩
    | named hj => exact ⟨.inr ⟨_, rfl⟩, _, hj⟩

/-! ## The numbers from one on -/

theorem countsFrom_iff {l : List (Int × Json)} : ∀ {n : Int},
    countsFrom n l = true ↔ ∀ m (hm : m < l.length), l[m].1 = n + m := by
  induction l with
  | nil => exact fun {n} => ⟨fun _ m hm => absurd hm (Nat.not_lt_zero m), fun _ => rfl⟩
  | cons e l ih =>
    intro n
    obtain ⟨i, j⟩ := e
    rw [countsFrom, Bool.and_eq_true, beq_iff_eq, ih]
    constructor
    · rintro ⟨hi, hl⟩ m hm
      cases m with
      | zero => simpa using hi
      | succ m =>
        rw [List.getElem_cons_succ, hl m (Nat.lt_of_succ_lt_succ hm)]
        omega
    · intro hl
      refine ⟨by simpa using hl 0 (Nat.succ_pos _), fun m hm => ?_⟩
      have := hl (m + 1) (Nat.succ_lt_succ hm)
      rw [List.getElem_cons_succ] at this
      omega

/-- The entries of a list, in order. -/
abbrev Split.inOrder (s : Split) : List (Int × Json) :=
  s.listed.mergeSort fun a b => decide (a.1 ≤ b.1)

theorem inOrder_perm (s : Split) : s.inOrder.Perm s.listed := List.mergeSort_perm ..

theorem sorted_inOrder (s : Split) : s.inOrder.Pairwise fun a b => a.1 ≤ b.1 := by
  have hsorted : s.inOrder.Pairwise fun a b => decide (a.1 ≤ b.1) = true :=
    List.pairwise_mergeSort (fun a b c hab hbc => by simp only [decide_eq_true_eq] at *; omega)
      (fun a b => by simp only [Bool.or_eq_true, decide_eq_true_eq]; omega) s.listed
  exact hsorted.imp fun h => of_decide_eq_true h

/-- Different numbers that are those from one on are so in order. -/
theorem countsFrom_inOrder {s : Split} {n : Nat} (hn : (s.listed.map (·.1)).Nodup)
    (hmem : ∀ i : Int, i ∈ s.listed.map (·.1) ↔ 1 ≤ i ∧ i ≤ n) : countsFrom 1 s.inOrder = true := by
  have hperm : (s.inOrder.map (·.1)).Perm ((List.range n).map fun m : Nat => 1 + (m : Int)) := by
    refine ((inOrder_perm s).map _).trans ((List.perm_ext_iff_of_nodup hn ?_).2 fun i => ?_)
    · rw [List.Nodup, List.pairwise_map]
      exact List.nodup_range.imp fun h heq => h (by omega)
    · rw [hmem, List.mem_map]
      constructor
      · rintro ⟨hpos, hle⟩
        exact ⟨(i - 1).toNat, List.mem_range.2 (by omega), by omega⟩
      · rintro ⟨m, hm, rfl⟩
        have := List.mem_range.1 hm
        omega
  have hkeys : s.inOrder.map (·.1) = (List.range n).map fun m : Nat => 1 + (m : Int) := by
    refine hperm.eq_of_pairwise (fun a b _ _ (hab : a ≤ b) hba => Int.le_antisymm hab hba)
      (List.pairwise_map.2 (sorted_inOrder s)) (List.pairwise_map.2 ?_)
    exact List.pairwise_lt_range.imp fun h => by omega
  have hlength : s.inOrder.length = n := by
    rw [← List.length_map, hkeys, List.length_map, List.length_range]
  refine countsFrom_iff.2 fun m hm => ?_
  have hat := List.getElem_of_eq hkeys (i := m) (by rwa [List.length_map])
  rwa [List.getElem_map, List.getElem_map, List.getElem_range] at hat

/-! ## Tables -/

/-- What entries make up, if they are converted. -/
theorem jsonOfSplit_eq_ok {s : Split} : jsonOfSplit s = .ok j ↔
    s.listed = [] ∧ j = .obj s.named ∨
      s.listed ≠ [] ∧ s.named = [] ∧ countsFrom 1 s.inOrder = true ∧
        j = .arr (s.inOrder.map (·.2)) := by
  obtain ⟨listed, named⟩ := s
  cases listed with
  | nil =>
    rw [show jsonOfSplit ⟨[], named⟩ = .ok (.obj named) from rfl, Except.ok.injEq]
    constructor
    · exact fun h => .inl ⟨rfl, h.symm⟩
    · rintro (⟨-, rfl⟩ | ⟨h, -⟩)
      · rfl
      · exact absurd rfl h
  | cons e es =>
    cases named with
    | cons f fs => simp [jsonOfSplit]
    | nil =>
      simp only [jsonOfSplit, Split.inOrder, List.isEmpty_cons, List.isEmpty_nil, Bool.not_true,
        Bool.false_eq_true, if_false]
      split
      · rename_i hcounts; simp [hcounts, eq_comm]
      · rename_i hcounts; simp [hcounts]

/-- What a table holds, split. -/
structure Divides (convert : Value → Except ContractFault Json) (t : Table) (s : Split) :
    Prop where
  listed : ∀ i j, (i, j) ∈ s.listed ↔
    ∃ k, t.get (.int k) ≠ .nil ∧ i = k.toInt ∧ convert (t.get (.int k)) = .ok j
  distinct : (s.listed.map (·.1)).Nodup
  named : ∀ k j, (k, j) ∈ s.named ↔
    t.get (.ofString k) ≠ .nil ∧ convert (t.get (.ofString k)) = .ok j
  sorted : s.named.Sorted
  all : ∀ k, t.get k ≠ .nil →
    ((∃ i, k = .int i) ∨ ∃ n, k = .ofString n) ∧ ∃ j, convert (t.get k) = .ok j

variable {t : Table} {s : Split}

theorem Splits.divides (ht : t.Valid) {es : List (Value × Value)} (he : es.Perm t.toList)
    (hs : Splits convert es s) : Divides convert t s := by
  have hmem {k v : Value} : (k, v) ∈ es ↔ t.get k = v ∧ v ≠ .nil :=
    he.mem_iff.trans (Table.mem_toList ht)
  refine ⟨fun i j => (hs.listed i j).trans ⟨?_, ?_⟩, hs.distinct,
    fun k j => (hs.named k j).trans ⟨?_, ?_⟩, hs.sorted,
    fun k hk => hs.all k _ (hmem.2 ⟨rfl, hk⟩)⟩
  · rintro ⟨k, v, hv, hi, hj⟩
    obtain ⟨rfl, hne⟩ := hmem.1 hv
    exact ⟨k, hne, hi, hj⟩
  · rintro ⟨k, hne, hi, hj⟩
    exact ⟨k, _, hmem.2 ⟨rfl, hne⟩, hi, hj⟩
  · rintro ⟨v, hv, hj⟩
    obtain ⟨rfl, hne⟩ := hmem.1 hv
    exact ⟨hne, hj⟩
  · rintro ⟨hne, hj⟩
    exact ⟨_, hmem.2 ⟨rfl, hne⟩, hj⟩

/-- Without numbers all keys are names. -/
theorem Divides.names (hs : Divides convert t s) (hnone : s.listed = []) {k : Value}
    (hk : t.get k ≠ .nil) : ∃ n j, k = .ofString n ∧ (n, j) ∈ s.named := by
  obtain ⟨⟨i, rfl⟩ | ⟨n, rfl⟩, j, hj⟩ := hs.all k hk
  · have hi := (hs.listed i.toInt j).2 ⟨i, hk, rfl, hj⟩
    rw [hnone] at hi
    cases hi
  · exact ⟨n, j, rfl, (hs.named n j).2 ⟨hk, hj⟩⟩

/-- In order, what is in place `m` stands under the number after `m`. -/
theorem Divides.place (hs : Divides convert t s) (hcounts : countsFrom 1 s.inOrder = true)
    {m : Nat} (hm : m < s.inOrder.length) : ∃ i : Int64, i.toInt = m + 1 ∧
      t.get (.int i) ≠ .nil ∧ convert (t.get (.int i)) = .ok s.inOrder[m].2 := by
  obtain ⟨i, hne, hi, hj⟩ := (hs.listed _ _).1 ((inOrder_perm s).mem_iff.1 (List.getElem_mem hm))
  have hi : i.toInt = 1 + m := hi.symm.trans (countsFrom_iff.1 hcounts m hm)
  exact ⟨i, by omega, hne, hj⟩

/-- Without names, and with the numbers from one on, the keys are those of a list. -/
theorem Divides.isListed (hs : Divides convert t s) (hnone : s.named = [])
    (hcounts : countsFrom 1 s.inOrder = true) : t.Listed s.inOrder.length := by
  intro k
  constructor
  · intro hk
    obtain ⟨⟨i, rfl⟩ | ⟨n, rfl⟩, j, hj⟩ := hs.all k hk
    · have hi := (hs.listed i.toInt j).2 ⟨i, hk, rfl, hj⟩
      obtain ⟨m, hm, hat⟩ := List.getElem_of_mem ((inOrder_perm s).mem_iff.2 hi)
      have hmi : i.toInt = 1 + m :=
        (congrArg Prod.fst hat).symm.trans (countsFrom_iff.1 hcounts m hm)
      exact ⟨i, rfl, by omega, by omega⟩
    · have hn := (hs.named n j).2 ⟨hk, hj⟩
      rw [hnone] at hn
      cases hn
  · rintro ⟨i, rfl, hpos, hle⟩
    obtain ⟨i', hi', hne, -⟩ := hs.place hcounts (m := i.toInt.toNat - 1) (by omega)
    rwa [Int64.toInt_inj.1 (show i.toInt = i'.toInt by omega)]

/-- A list has no names, and the numbers from one on. -/
theorem Divides.of_isListed (hs : Divides convert t s) {n : Nat} (hn : n < Nat.pow 2 63)
    (hl : t.Listed n) : s.named = [] ∧ countsFrom 1 s.inOrder = true := by
  refine ⟨List.eq_nil_iff_forall_not_mem.2 fun ⟨k, j⟩ hk => ?_,
    countsFrom_inOrder (n := n) hs.distinct fun i => ⟨fun hi => ?_, fun hi => ?_⟩⟩
  · obtain ⟨i, hki, -⟩ := (hl _).1 ((hs.named k j).1 hk).1
    cases hki
  · obtain ⟨⟨_, j⟩, hmem, rfl⟩ := List.mem_map.1 hi
    obtain ⟨k, hne, rfl, -⟩ := (hs.listed _ j).1 hmem
    obtain ⟨k', hk, hpos, hle⟩ := (hl _).1 hne
    cases hk
    exact ⟨hpos, hle⟩
  · have hpow := pow_63
    have htoInt : (Int64.ofInt i).toInt = i := Int64.toInt_ofInt_of_le (by omega) (by omega)
    have hne : t.get (.int (.ofInt i)) ≠ .nil := (hl _).2 ⟨_, rfl, by omega, by omega⟩
    obtain ⟨-, j, hj⟩ := hs.all _ hne
    exact List.mem_map.2 ⟨(i, j), (hs.listed i j).2 ⟨_, hne, htoInt.symm, hj⟩, rfl⟩

theorem Divides.depicts_obj (hs : Divides convert (h.table r) s) (hnone : s.listed = [])
    (hchild : ∀ v j, convert v = .ok j → Depicts h v j) : Depicts h (.table r) (.obj s.named) :=
  .obj hs.sorted (fun _ hk => hs.names hnone hk) fun n j hn =>
    hchild _ _ ((hs.named n j).1 hn).2

theorem Divides.depicts_arr (hs : Divides convert (h.table r) s) (hsome : s.listed ≠ [])
    (hnone : s.named = []) (hcounts : countsFrom 1 s.inOrder = true)
    (hchild : ∀ v j, convert v = .ok j → Depicts h v j) :
    Depicts h (.table r) (.arr (s.inOrder.map (·.2))) := by
  refine .arr ?_ (by rw [List.length_map]; exact hs.isListed hnone hcounts) fun m hm => ?_
  · rw [Ne, List.map_eq_nil_iff]
    exact fun hnil => hsome (hnil ▸ inOrder_perm s : List.Perm [] s.listed).nil_eq.symm
  · rw [List.length_map] at hm
    obtain ⟨i, hi, hne, hj⟩ := hs.place hcounts hm
    have hlt := i.toInt_lt
    have hpow := pow_63
    have hkey : i = .ofNat (m + 1) := Int64.toInt_inj.1 (by rw [toInt_ofNat (by omega)]; omega)
    rw [List.getElem_map, ← hkey]
    exact hchild _ _ hj

variable {entries : Nat → List (Value × Value)}

theorem nodup_keys_entries (hh : h.Valid) (he : ∀ r, (entries r).Perm (h.table r).toList)
    (r : Nat) : ((entries r).map (·.1)).Nodup :=
  ((he r).map _).nodup_iff.2 (Table.nodup_keys (hh r))

/-- A table that is converted is split. -/
theorem divides_of_jsonOfTable (hh : h.Valid) (he : ∀ r, (entries r).Perm (h.table r).toList)
    (hj : jsonOfTable entries (d + 1) r = .ok j) :
    ∃ s, Divides (valueToJson (jsonOfTable entries d)) (h.table r) s ∧ jsonOfSplit s = .ok j := by
  rw [jsonOfTable, jsonOfEntries_eq_ok] at hj
  obtain ⟨xs, hxs, hj⟩ := hj
  exact ⟨_, (splits_foldl hxs (nodup_keys_entries hh he r)).divides (hh r) (he r), hj⟩

theorem exists_forall₂ {α β : Type} {R : α → β → Prop} :
    ∀ {as : List α}, (∀ a ∈ as, ∃ b, R a b) → ∃ bs, List.Forall₂ R as bs
  | [], _ => ⟨[], .nil⟩
  | a :: as, hall => by
    obtain ⟨b, hb⟩ := hall a List.mem_cons_self
    obtain ⟨bs, hbs⟩ := exists_forall₂ fun a ha => hall a (List.mem_cons_of_mem _ ha)
    exact ⟨b :: bs, .cons hb hbs⟩

/-- A table with such keys only, of which all that it holds is converted, is split. -/
theorem exists_divides (hh : h.Valid) (he : ∀ r, (entries r).Perm (h.table r).toList)
    (hall : ∀ k, (h.table r).get k ≠ .nil → ((∃ i, k = .int i) ∨ ∃ n, k = .ofString n) ∧
      ∃ j, valueToJson (jsonOfTable entries d) ((h.table r).get k) = .ok j) :
    ∃ s, Divides (valueToJson (jsonOfTable entries d)) (h.table r) s ∧
      ∀ j, jsonOfSplit s = .ok j → jsonOfTable entries (d + 1) r = .ok j := by
  obtain ⟨xs, hxs⟩ : ∃ xs, List.Forall₂ (Converts (valueToJson (jsonOfTable entries d)))
      (entries r) xs := by
    refine exists_forall₂ fun ⟨k, v⟩ hmem => ?_
    obtain ⟨rfl, hne⟩ := (Table.mem_toList (hh r)).1 ((he r).mem_iff.1 hmem)
    obtain ⟨⟨i, rfl⟩ | ⟨n, rfl⟩, j, hj⟩ := hall k hne
    · exact ⟨_, .listed hj⟩
    · exact ⟨_, .named hj⟩
  exact ⟨_, (splits_foldl hxs (nodup_keys_entries hh he r)).divides (hh r) (he r),
    fun j hj => jsonOfEntries_eq_ok.2 ⟨xs, hxs, hj⟩⟩

/-- **What a table is converted to is its tree.** -/
theorem depicts_of_jsonOfTable (hh : h.Valid)
    (he : ∀ r, (entries r).Perm (h.table r).toList) : ∀ {d r : Nat} {j : Json},
    jsonOfTable entries d r = .ok j → Depicts h (.table r) j ∧ Convertible h d (.table r)
  | 0, _, _, hj => by cases hj
  | d + 1, r, j, hj => by
    have hchild (v : Value) (j : Json) (hj : valueToJson (jsonOfTable entries d) v = .ok j) :
        Depicts h v j ∧ Convertible h d v := by
      rcases valueToJson_eq_ok.1 hj with ⟨r, rfl, hj⟩ | hp
      · exact depicts_of_jsonOfTable hh he hj
      · exact ⟨.plain hp, hp.convertible h d⟩
    obtain ⟨s, hs, hj⟩ := divides_of_jsonOfTable hh he hj
    have hfields (k : Value) (hk : (h.table r).get k ≠ .nil) :
        Convertible h d ((h.table r).get k) := by
      obtain ⟨-, j, hj⟩ := hs.all k hk
      exact (hchild _ j hj).2
    rcases jsonOfSplit_eq_ok.1 hj with ⟨hnone, rfl⟩ | ⟨hsome, hnone, hcounts, rfl⟩
    · have hnamed : (h.table r).Named := fun k hk => by
        obtain ⟨n, -, rfl, -⟩ := hs.names hnone hk
        exact ⟨n, rfl⟩
      exact ⟨hs.depicts_obj hnone fun v j hj => (hchild v j hj).1,
        convertible_table_succ.2 ⟨.inl hnamed, hfields⟩⟩
    · exact ⟨hs.depicts_arr hsome hnone hcounts fun v j hj => (hchild v j hj).1,
        convertible_table_succ.2 ⟨.inr ⟨_, hs.isListed hnone hcounts⟩, hfields⟩⟩

/-- **What can be converted is converted.** -/
theorem exists_jsonOfTable (hh : h.Valid) (he : ∀ r, (entries r).Perm (h.table r).toList) :
    ∀ {d r : Nat}, Convertible h d (.table r) → ∃ j, jsonOfTable entries d r = .ok j
  | 0, r, hc => absurd hc (not_convertible_zero h r)
  | d + 1, r, hc => by
    obtain ⟨hkeys, hall⟩ := convertible_table_succ.1 hc
    have hchild {v : Value} (hv : Convertible h d v) :
        ∃ j, valueToJson (jsonOfTable entries d) v = .ok j := by
      rcases hv.leaves [] v (.here v) with ⟨r, rfl⟩ | ⟨j, hp⟩
      · obtain ⟨j, hj⟩ := exists_jsonOfTable hh he hv
        exact ⟨j, valueToJson_eq_ok.2 (.inl ⟨r, rfl, hj⟩)⟩
      · exact ⟨j, valueToJson_eq_ok.2 (.inr hp)⟩
    obtain ⟨s, hs, hjson⟩ := exists_divides hh he (r := r) (d := d) fun k hk => by
      refine ⟨?_, hchild (hall k hk)⟩
      rcases hkeys with hnamed | ⟨n, hlisted⟩
      · exact .inr (hnamed k hk)
      · obtain ⟨i, rfl, -⟩ := (hlisted k).1 hk
        exact .inl ⟨i, rfl⟩
    by_cases hnone : s.listed = []
    · exact ⟨_, hjson _ (jsonOfSplit_eq_ok.2 (.inl ⟨hnone, rfl⟩))⟩
    · -- some key is a number, so all of them are
      obtain ⟨⟨i, j⟩, hmem⟩ := List.exists_mem_of_ne_nil _ hnone
      obtain ⟨i, hi, -⟩ := (hs.listed i j).1 hmem
      rcases hkeys with hnamed | ⟨n, hlisted⟩
      · obtain ⟨n, hn⟩ := hnamed _ hi
        cases hn
      · obtain ⟨n, hn, hlisted⟩ := hlisted.exists_lt
        obtain ⟨hnames, hcounts⟩ := hs.of_isListed hn hlisted
        exact ⟨_, hjson _ (jsonOfSplit_eq_ok.2 (.inr ⟨hnone, hnames, hcounts, rfl⟩))⟩

/-- **The JSON of a table** is the tree of its unfolding, if that can be
    converted. -/
theorem jsonOfTable_eq_ok (hh : h.Valid) (he : ∀ r, (entries r).Perm (h.table r).toList) :
    jsonOfTable entries d r = .ok j ↔ Depicts h (.table r) j ∧ Convertible h d (.table r) := by
  refine ⟨depicts_of_jsonOfTable hh he, fun ⟨hj, hc⟩ => ?_⟩
  obtain ⟨j', hj'⟩ := exists_jsonOfTable hh he hc
  rwa [hj.unique (depicts_of_jsonOfTable hh he hj').1]

theorem mapError_eq_ok {α : Type} {x : Except ContractFault α} {a : α} :
    x.mapError ContractFault.toError = .ok a ↔ x = .ok a := by
  cases x with
  | error f => exact ⟨nofun, nofun⟩
  | ok b =>
    rw [show (Except.ok b).mapError ContractFault.toError = .ok b from rfl, Except.ok.injEq,
      Except.ok.injEq]

/-- **The result of a script is converted exactly.**  Whatever tables hold each
    other, and in whatever order their entries are met: a table is converted if
    its unfolding can be, and then to the tree of its unfolding, of which
    nothing is lost.  All else is a breach of the contract. -/
theorem jsonOfTable_exact (hh : h.Valid) (he : ∀ r, (entries r).Perm (h.table r).toList) (r : Nat) :
    let converted := (jsonOfTable entries maxResultDepth r).mapError ContractFault.toError
    ((∃ j, converted = .ok j) ↔ Convertible h 64 (.table r)) ∧
      (∀ j, converted = .ok j ↔ Depicts h (.table r) j ∧ Convertible h 64 (.table r)) ∧
      (∀ j j', Depicts h (.table r) j → Depicts h (.table r) j' → j = j') ∧
      (∀ j, converted = .ok j ↔ tableToJson h maxResultDepth r = .ok j) ∧
      (∀ h' r' j, Heap.Valid h' → converted = .ok j →
        tableToJson h' maxResultDepth r' = .ok j → SameTree h (.table r) h' (.table r')) ∧
      (¬Convertible h 64 (.table r) → ∃ m, converted = .error (.contract m)) := by
  intro converted
  have hok {j : Json} : converted = .ok j ↔ jsonOfTable entries maxResultDepth r = .ok j :=
    mapError_eq_ok
  have hsome : (∃ j, converted = .ok j) ↔ Convertible h 64 (.table r) := by
    refine ⟨fun ⟨j, hj⟩ => ((jsonOfTable_eq_ok hh he).1 (hok.1 hj)).2, fun hc => ?_⟩
    obtain ⟨j, hj⟩ := exists_jsonOfTable hh he hc
    exact ⟨j, hok.2 hj⟩
  refine ⟨hsome, fun j => hok.trans (jsonOfTable_eq_ok hh he), fun j j' hj hj' => hj.unique hj',
    fun j => ?_, fun h' r' j hh' hj hj' => ?_, fun hc => ?_⟩
  · exact (hok.trans (jsonOfTable_eq_ok hh he)).trans (jsonOfTable_eq_ok hh fun r => .refl _).symm
  · exact ((jsonOfTable_eq_ok hh he).1 (hok.1 hj)).1.sameTree
      ((jsonOfTable_eq_ok hh' fun r => .refl _).1 hj').1
  · cases hx : jsonOfTable entries maxResultDepth r with
    | ok j => exact absurd (hsome.1 ⟨j, hok.2 hx⟩) hc
    | error f => exact ⟨f.message, congrArg (Except.mapError ContractFault.toError) hx⟩

/-- Two fields that share a table, and a table that holds itself. -/
theorem jsonOfTable_exact_pair :
    let pair := (Table.empty.setText "left" (.table 1)).setText "right" (.table 1)
    let door := Table.empty.setText "open" (.bool true)
    let own := Table.empty.setText "self" (.table 2)
    let h : Heap := { Heap.standard 0 with tables := #[pair, door, own] }
    let entries := fun r => (h.table r).toList.reverse
    let j : Json := .obj [("left", .obj [("open", .bool true)]), ("right", .obj [("open", .bool true)])]
    h.Valid ∧ (∀ r, (entries r).Perm (h.table r).toList) ∧
      jsonOfTable entries maxResultDepth 0 = .ok j ∧ Depicts h (.table 0) j ∧
      ¬Convertible h 64 (.table 2) ∧
      ∃ m, (jsonOfTable entries maxResultDepth 2).mapError ContractFault.toError =
        .error (.contract m) := by
  intro pair door own h entries j
  have hempty := Table.valid_empty
  have hh : h.Valid := by
    refine Heap.valid_of_forall_mem fun t ht => ?_
    simp only [h, List.mem_toArray, List.mem_cons, List.not_mem_nil, or_false] at ht
    rcases ht with rfl | rfl | rfl
    · exact (hempty.setText _ _).setText _ _
    · exact hempty.setText _ _
    · exact hempty.setText _ _
  have he : ∀ r, (entries r).Perm (h.table r).toList := fun r => List.reverse_perm _
  have hj : jsonOfTable entries maxResultDepth 0 = .ok j := rfl
  have hself : (h.table 2).get (.ofString "self") = .table 2 :=
    (hempty.get_setText "self" (.table 2) _).trans (if_pos rfl)
  have hleads (n : Nat) : h.Leads (.table 2) (.replicate n (.ofString "self")) (.table 2) := by
    induction n with
    | zero => exact .here _
    | succ n ih => exact .field (hself ▸ nofun) (hself ▸ ih)
  have hcycle : ¬Convertible h 64 (.table 2) := fun hc =>
    absurd (hc.shallow _ 2 (hleads 64)) (by simp)
  have htree := ((jsonOfTable_exact hh he 0).2.1 j).1 (mapError_eq_ok.2 hj)
  exact ⟨hh, he, hj, htree.1, hcycle, (jsonOfTable_exact hh he 2).2.2.2.2.2 hcycle⟩

end Script
end Reactor
