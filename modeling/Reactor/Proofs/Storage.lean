/-
  The storage through the row under each key.

  * `Valid` says that no two rows have a key in common;
  * `create_eq_ok` and `delete_eq_ok` say when the operations succeed and what
    they do, `find?_create` and `find?_delete` what that means for each key, and
    `delete_create` that the one undoes the other;
  * `reaction_rowOf`: the row of a reaction holds the reaction;
  * `get_eq_ok`: what reading the row under a key gives;
  * `Ordered` says that the rows are in the order in which they were written, and
    `Holds` that those of an event hold some reactions;
  * `forEvent_eq_ok` and `all_eq_ok`: what reading the rows of one event, or of
    all, then gives;
  * `Row.written` is the reaction in a row with the names that its steps have
    there, and `exists_row_of_all`: what reading gives is in a row.
-/
import Mathlib.Data.List.Nodup
import Reactor.Proofs.Reaction
import Reactor.Storage

namespace Reactor

namespace Row

/-- What tells rows apart. -/
def key (r : Row) : String × String := (r.event, r.name)

theorem isFor_iff {r : Row} {e n : String} : r.isFor e n = true ↔ r.key = (e, n) := by
  simp [isFor, key]

/-- The reaction that a row holds, with the names that its steps have there. -/
def written (row : Row) : Except ServiceError Reaction := do
  let script ← row.script.read 2 "script"
  let text ← row.steps.read 3 "steps"
  let steps ← (Reaction.decodeSteps text).mapError .ofRead
  return ⟨row.name, row.event, script, steps⟩

theorem reaction_eq (row : Row) : row.reaction = row.written.map Reaction.normalize := by
  unfold reaction written
  cases row.script.read 2 "script" with
  | error e => rfl
  | ok script =>
    cases row.steps.read 3 "steps" with
    | error e => rfl
    | ok text => cases h : (Reaction.decodeSteps text).mapError ServiceError.ofRead <;> simp [h] <;> rfl

/-- What a row holds that can be read. -/
theorem reaction_ok {row : Row} {r : Reaction} (h : row.reaction = .ok r) :
    r.key = row.key ∧ r.normalize = r := by
  obtain ⟨script, -, h⟩ := Except.bind_eq_ok.1 h
  obtain ⟨text, -, h⟩ := Except.bind_eq_ok.1 h
  obtain ⟨steps, -, h⟩ := Except.bind_eq_ok.1 h
  cases h
  exact ⟨rfl, Reaction.normalize_idem _⟩

theorem isBefore_iff {a b : Row} :
    a.isBefore b ↔ a.createdAt < b.createdAt ∨ a.createdAt = b.createdAt ∧ a.number ≤ b.number := by
  simp [isBefore]

theorem isBefore_trans {a b c : Row} (hab : a.isBefore b) (hbc : b.isBefore c) :
    a.isBefore c := by
  rw [isBefore_iff] at *
  omega

theorem isBefore_total (a b : Row) : a.isBefore b || b.isBefore a := by
  rw [Bool.or_eq_true, isBefore_iff, isBefore_iff]
  omega

theorem isBeforeByEvent_iff {a b : Row} :
    a.isBeforeByEvent b ↔ a.event < b.event ∨ a.event = b.event ∧ a.isBefore b := by
  simp [isBeforeByEvent]

theorem isBeforeByEvent_trans {a b c : Row} (hab : a.isBeforeByEvent b)
    (hbc : b.isBeforeByEvent c) : a.isBeforeByEvent c := by
  rw [isBeforeByEvent_iff] at *
  rcases hab with hab | ⟨hab, hab'⟩ <;> rcases hbc with hbc | ⟨hbc, hbc'⟩
  · exact Or.inl (String.lt_trans hab hbc)
  · exact Or.inl (hbc ▸ hab)
  · exact Or.inl (hab ▸ hbc)
  · exact Or.inr ⟨hab.trans hbc, isBefore_trans hab' hbc'⟩

theorem isBeforeByEvent_total (a b : Row) : a.isBeforeByEvent b || b.isBeforeByEvent a := by
  rw [Bool.or_eq_true, isBeforeByEvent_iff, isBeforeByEvent_iff]
  by_cases he : a.event = b.event
  · have htime := Bool.or_eq_true .. ▸ isBefore_total a b
    exact htime.imp (fun h => Or.inr ⟨he, h⟩) fun h => Or.inr ⟨he.symm, h⟩
  · by_cases hlt : a.event < b.event
    · exact Or.inl (Or.inl hlt)
    · exact Or.inr (Or.inl (Fields.lt_of_not_lt_of_ne hlt he))

/-- Rows are sorted by age. -/
theorem pairwise_isBefore (rows : List Row) :
    (rows.mergeSort isBefore).Pairwise fun a b => a.isBefore b :=
  @List.pairwise_mergeSort Row isBefore (fun _ _ _ => isBefore_trans) isBefore_total rows

/-- Rows are sorted by event. -/
theorem pairwise_isBeforeByEvent (rows : List Row) :
    (rows.mergeSort isBeforeByEvent).Pairwise fun a b => a.isBeforeByEvent b :=
  @List.pairwise_mergeSort Row isBeforeByEvent (fun _ _ _ => isBeforeByEvent_trans)
    isBeforeByEvent_total rows

/-- Rows that are before each other have one number. -/
theorem number_eq_of_isBefore {a b : Row} (hab : a.isBeforeByEvent b) (hba : b.isBeforeByEvent a) :
    a.number = b.number := by
  rw [isBeforeByEvent_iff] at *
  rcases hab with hab | ⟨hab, hab'⟩ <;> rcases hba with hba | ⟨hba, hba'⟩
  · exact absurd hba (String.lt_asymm hab)
  · exact absurd hba.symm (String.ne_of_lt hab)
  · exact absurd hab.symm (String.ne_of_lt hba)
  · rw [isBefore_iff] at *
    omega

end Row

namespace Storage

/-- No two rows have a key in common. -/
def Valid (s : Storage) : Prop := (s.rows.map Row.key).Nodup

theorem valid_empty : empty.Valid := List.nodup_nil

/-- The row that a reaction is written to. -/
def rowOf (s : Storage) (now : Int) (r : Reaction) : Row :=
  ⟨s.nextNumber, r.event, r.name, .text r.script, .text (stepsText r), now⟩

/-- **The row of a reaction holds the reaction.** -/
theorem reaction_rowOf {r : Reaction} (hr : r.steps.Sorted) (s : Storage) (now : Int) :
    (s.rowOf now r).reaction = .ok r.normalize := by
  show ((Reaction.decodeSteps (Reaction.stepsToJson r.steps).compress).mapError ServiceError.ofRead >>=
    fun steps => (.ok (Reaction.normalize ⟨r.name, r.event, r.script, steps⟩) : Except _ _)) = _
  rw [Reaction.decodeSteps_text hr]; rfl

/-! ## Rows by key -/

theorem find?_key {s : Storage} {e n : String} {row : Row} (h : s.find? e n = some row) :
    row.key = (e, n) := by
  have hfor := List.find?_some h
  exact Row.isFor_iff.1 hfor

theorem find?_eq_some {s : Storage} (hs : s.Valid) {e n : String} {row : Row} :
    s.find? e n = some row ↔ row ∈ s.rows ∧ row.key = (e, n) := by
  constructor
  · intro h
    exact ⟨List.mem_of_find?_eq_some h, find?_key h⟩
  · rintro ⟨hrow, hk⟩
    cases h : s.find? e n with
    | none => exact absurd (Row.isFor_iff.2 hk) (List.find?_eq_none.1 h row hrow)
    | some row' =>
      have hk' := find?_key h
      rw [List.inj_on_of_nodup_map hs (List.mem_of_find?_eq_some h) hrow (hk'.trans hk.symm)]

theorem find?_eq_none {s : Storage} {e n : String} :
    s.find? e n = none ↔ ∀ row ∈ s.rows, row.key ≠ (e, n) := by
  simp [find?, List.find?_eq_none, Row.isFor_iff]

theorem get_eq_ok {s : Storage} {e n : String} {r? : Option Reaction} :
    s.get e n = .ok r? ↔
      match r? with
      | none => s.find? e n = none
      | some r => ∃ row, s.find? e n = some row ∧ row.reaction = .ok r := by
  rw [get]
  cases hf : s.find? e n with
  | none => cases r? <;> simp
  | some row =>
    cases r? with
    | none => simp [Except.map_eq_ok]
    | some r => simp [Except.map_eq_ok]

/-! ## The operations -/

theorem create_eq_ok {s t : Storage} {now : Int} {r : Reaction} :
    s.create now r = .ok t ↔
      s.find? r.event r.name = none ∧ t = ⟨s.rows ++ [s.rowOf now r]⟩ := by
  rw [create, insertRaw]
  cases h : s.find? r.event r.name with
  | none => exact ⟨fun h => ⟨rfl, (Except.ok.inj h).symm⟩, fun h => congrArg Except.ok h.2.symm⟩
  | some row => exact ⟨nofun, nofun⟩

theorem create_of_find? {s : Storage} {now : Int} {r : Reaction} {row : Row}
    (h : s.find? r.event r.name = some row) :
    s.create now r = .error (.conflict r.event r.name) := by
  rw [create, insertRaw, h]; rfl

theorem delete_eq_ok {s t : Storage} {e n : String} :
    s.delete e n = .ok t ↔
      (s.find? e n).isSome ∧ t = ⟨s.rows.filter fun r => !r.isFor e n⟩ := by
  rw [delete]
  cases h : s.find? e n with
  | none => exact ⟨nofun, nofun⟩
  | some row => exact ⟨fun h => ⟨rfl, (Except.ok.inj h).symm⟩, fun h => congrArg Except.ok h.2.symm⟩

theorem delete_of_find?_eq_none {s : Storage} {e n : String} (h : s.find? e n = none) :
    s.delete e n = .error (.notFound e n) := by
  rw [delete, h]; rfl

theorem Valid.append {s : Storage} (hs : s.Valid) {row : Row}
    (hnone : s.find? row.event row.name = none) : Valid ⟨s.rows ++ [row]⟩ := by
  show ((s.rows ++ [row]).map Row.key).Nodup
  rw [List.map_append]
  refine List.nodup_append.2 ⟨hs, List.nodup_singleton _, ?_⟩
  intro k hk k' hk'
  obtain ⟨row', hrow', rfl⟩ := List.mem_map.1 hk
  rw [List.mem_singleton.1 hk']
  exact find?_eq_none.1 hnone row' hrow'

theorem Valid.create {s t : Storage} (hs : s.Valid) {now : Int} {r : Reaction}
    (h : s.create now r = .ok t) : t.Valid := by
  obtain ⟨hnone, rfl⟩ := create_eq_ok.1 h
  exact hs.append hnone

theorem Valid.delete {s t : Storage} (hs : s.Valid) {e n : String} (h : s.delete e n = .ok t) :
    t.Valid := by
  obtain ⟨-, rfl⟩ := delete_eq_ok.1 h
  exact hs.sublist (List.filter_sublist.map _)

theorem find?_create {s t : Storage} {now : Int} {r : Reaction} (h : s.create now r = .ok t)
    (e n : String) :
    t.find? e n = if e = r.event ∧ n = r.name then some (s.rowOf now r) else s.find? e n := by
  obtain ⟨hnone, rfl⟩ := create_eq_ok.1 h
  rw [find?, List.find?_append, ← find?]
  by_cases hk : e = r.event ∧ n = r.name
  · obtain ⟨rfl, rfl⟩ := hk
    rw [hnone, if_pos ⟨rfl, rfl⟩]
    simp [Row.isFor, rowOf]
  · have hfor : (s.rowOf now r).isFor e n = false := by
      rw [Bool.eq_false_iff, ne_eq, Row.isFor_iff]
      exact fun h => hk ⟨(congrArg Prod.fst h).symm, (congrArg Prod.snd h).symm⟩
    rw [if_neg hk, List.find?_singleton, hfor]
    simp

theorem find?_delete {s t : Storage} {e n : String} (h : s.delete e n = .ok t) (e' n' : String) :
    t.find? e' n' = if e' = e ∧ n' = n then none else s.find? e' n' := by
  obtain ⟨-, rfl⟩ := delete_eq_ok.1 h
  rw [find?, List.find?_filter]
  by_cases hk : e' = e ∧ n' = n
  · obtain ⟨rfl, rfl⟩ := hk
    rw [if_pos ⟨rfl, rfl⟩, List.find?_eq_none]
    intro row _; simp
  · rw [if_neg hk, find?]
    congr 1; funext row
    cases hfor : row.isFor e' n' with
    | false => simp
    | true =>
      have hk' := Row.isFor_iff.1 hfor
      have : row.isFor e n = false := by
        rw [Bool.eq_false_iff, ne_eq, Row.isFor_iff, hk']
        exact fun h => hk ⟨congrArg Prod.fst h, congrArg Prod.snd h⟩
      simp [this]

/-- What was written and is taken out again leaves the storage as it was. -/
theorem delete_create {s t : Storage} {now : Int} {r : Reaction} (h : s.create now r = .ok t) :
    t.delete r.event r.name = .ok s := by
  have hfind := find?_create h r.event r.name
  obtain ⟨hnone, rfl⟩ := create_eq_ok.1 h
  have hrest : s.rows.filter (fun row => !row.isFor r.event r.name) = s.rows := by
    refine List.filter_eq_self.2 fun row hrow => ?_
    have hk := find?_eq_none.1 hnone row hrow
    rw [ne_eq, ← Row.isFor_iff] at hk
    simp [hk]
  refine delete_eq_ok.2 ⟨by rw [hfind, if_pos ⟨rfl, rfl⟩]; rfl, ?_⟩
  rw [List.filter_append, hrest]
  simp [Row.isFor, rowOf]

/-! ## Rows in order -/

/-- Each row was written later than those before it, and its number is above
    theirs. -/
def Ordered (s : Storage) : Prop :=
  s.rows.Pairwise fun a b => a.createdAt ≤ b.createdAt ∧ a.number < b.number

theorem ordered_empty : empty.Ordered := .nil

theorem Ordered.nodup {s : Storage} (hs : s.Ordered) : s.rows.Nodup := by
  refine List.Pairwise.imp ?_ hs
  rintro a b ⟨-, hlt⟩ rfl
  exact Nat.lt_irrefl _ hlt

theorem le_foldl_max : ∀ {ns : List Nat} {m n : Nat}, n ≤ m ∨ n ∈ ns → n ≤ ns.foldl max m
  | [], m, n, h => by simpa using h
  | k :: ns, m, n, h => by
    show n ≤ ns.foldl max (max m k)
    refine le_foldl_max ?_
    rcases h with h | h
    · exact Or.inl (Nat.le_trans h (Nat.le_max_left m k))
    · rcases List.mem_cons.1 h with rfl | h
      · exact Or.inl (Nat.le_max_right m n)
      · exact Or.inr h

theorem number_lt_nextNumber {s : Storage} {row : Row} (h : row ∈ s.rows) :
    row.number < s.nextNumber :=
  Nat.lt_succ_of_le (le_foldl_max (Or.inr (List.mem_map_of_mem h)))

theorem Ordered.create {s t : Storage} (hs : s.Ordered) {now : Int} {r : Reaction}
    (hpast : ∀ row ∈ s.rows, row.createdAt ≤ now) (h : s.create now r = .ok t) : t.Ordered := by
  obtain ⟨-, rfl⟩ := create_eq_ok.1 h
  refine List.pairwise_append.2 ⟨hs, List.pairwise_singleton _ _, fun a ha b hb => ?_⟩
  rw [List.mem_singleton.1 hb]
  exact ⟨hpast a ha, number_lt_nextNumber ha⟩

theorem Ordered.delete {s t : Storage} (hs : s.Ordered) {e n : String}
    (h : s.delete e n = .ok t) : t.Ordered := by
  obtain ⟨-, rfl⟩ := delete_eq_ok.1 h
  exact hs.filter _

/-! ## The rows of one event -/

/-- The rows of an event. -/
def rowsOf (s : Storage) (e : String) : List Row := s.rows.filter (·.event == e)

theorem mem_rowsOf {s : Storage} {e : String} {row : Row} :
    row ∈ s.rowsOf e ↔ row ∈ s.rows ∧ row.event = e := by
  simp [rowsOf]

theorem rowsOf_create {s t : Storage} {now : Int} {r : Reaction} (h : s.create now r = .ok t)
    (e : String) :
    t.rowsOf e = if e = r.event then s.rowsOf e ++ [s.rowOf now r] else s.rowsOf e := by
  obtain ⟨-, rfl⟩ := create_eq_ok.1 h
  rw [rowsOf, List.filter_append, ← rowsOf]
  split
  · rename_i he
    rw [List.filter_cons_of_pos (by simp [rowOf, he]), List.filter_nil]
  · rename_i he
    rw [List.filter_cons_of_neg (by simpa [rowOf] using Ne.symm he), List.filter_nil,
      List.append_nil]

theorem rowsOf_delete {s t : Storage} {e n : String} (h : s.delete e n = .ok t) (e' : String) :
    t.rowsOf e' = if e' = e then (s.rowsOf e').filter (·.name != n) else s.rowsOf e' := by
  obtain ⟨-, rfl⟩ := delete_eq_ok.1 h
  unfold rowsOf
  split
  · rename_i he
    subst he
    rw [List.filter_filter, List.filter_filter]
    refine List.filter_congr fun row _ => ?_
    cases he : row.event == e' <;> simp [Row.isFor, he, bne]
  · rename_i hne
    rw [List.filter_filter]
    refine List.filter_congr fun row _ => ?_
    by_cases he : row.event = e'
    · simp [Row.isFor, he, hne]
    · simp [he]

/-- The rows of an event hold some reactions, in order. -/
def Holds (s : Storage) (e : String) (rs : List Reaction) : Prop :=
  List.Forall₂ (fun row r => row.reaction = .ok r) (s.rowsOf e) rs

theorem holds_empty (e : String) : empty.Holds e [] := .nil

theorem Holds.names {s : Storage} {e : String} {rs : List Reaction} (h : s.Holds e rs) :
    (s.rowsOf e).map (·.name) = rs.map (·.name) := by
  rw [← List.forall₂_eq_eq_eq, List.forall₂_map_left_iff, List.forall₂_map_right_iff]
  exact h.imp fun row r hr => (congrArg Prod.snd (Row.reaction_ok hr).1).symm

theorem Holds.find?_eq_none {s : Storage} {e n : String} {rs : List Reaction} (h : s.Holds e rs) :
    s.find? e n = none ↔ ∀ r ∈ rs, r.name ≠ n := by
  have hrows : s.find? e n = none ↔ n ∉ (s.rowsOf e).map (·.name) := by
    rw [Storage.find?_eq_none, List.mem_map]
    constructor
    · rintro hnone ⟨row, hrow, rfl⟩
      obtain ⟨hmem, he⟩ := mem_rowsOf.1 hrow
      exact hnone row hmem (congrArg (·, row.name) he)
    · intro hn row hrow hk
      obtain ⟨rfl, rfl⟩ := Prod.mk.inj hk
      exact hn ⟨row, mem_rowsOf.2 ⟨hrow, rfl⟩, rfl⟩
  rw [hrows, h.names, List.mem_map]
  exact ⟨fun h r hr hn => h ⟨r, hr, hn⟩, fun h ⟨r, hr, hn⟩ => h r hr hn⟩

theorem Holds.exists_row {s : Storage} {e : String} {rs : List Reaction} (h : s.Holds e rs)
    {r : Reaction} (hr : r ∈ rs) : ∃ row ∈ s.rows, row.event = e ∧ row.reaction = .ok r := by
  obtain ⟨i, hi, rfl⟩ := List.getElem_of_mem hr
  have hi' : i < (s.rowsOf e).length := h.length_eq ▸ hi
  obtain ⟨hmem, he⟩ := mem_rowsOf.1 (List.getElem_mem hi')
  exact ⟨_, hmem, he, h.get hi' hi⟩

/-- What rows hold has its steps named. -/
theorem Holds.map_normalize {s : Storage} {e : String} {rs : List Reaction} (h : s.Holds e rs) :
    rs.map Reaction.normalize = rs := by
  unfold Holds at h
  generalize s.rowsOf e = rows at h
  induction h with
  | nil => rfl
  | cons hr _ ih => rw [List.map_cons, (Row.reaction_ok hr).2, ih]

theorem Holds.create {s t : Storage} {e : String} {rs : List Reaction} (hs : s.Holds e rs)
    {now : Int} {r : Reaction} (hr : r.steps.Sorted) (h : s.create now r = .ok t) :
    t.Holds e (if e = r.event then rs ++ [r.normalize] else rs) := by
  rw [Holds, rowsOf_create h]
  split
  · exact List.rel_append hs (.cons (reaction_rowOf hr s now) .nil)
  · exact hs

theorem Holds.delete {s t : Storage} {e : String} {rs : List Reaction} (hs : s.Holds e rs)
    {e' n : String} (h : s.delete e' n = .ok t) :
    t.Holds e (if e = e' then rs.filter (·.name != n) else rs) := by
  rw [Holds, rowsOf_delete h]
  split
  · refine List.rel_filter (fun row r hr => ?_) hs
    have hn : row.name = r.name := (congrArg Prod.snd (Row.reaction_ok hr).1).symm
    simp only [hn]
  · exact hs

/-- Rows that hold differently named reactions to each event have different
    keys. -/
theorem Ordered.valid {s : Storage} (hs : s.Ordered) {rs : String → List Reaction}
    (h : ∀ e, s.Holds e (rs e)) (hn : ∀ e, ((rs e).map (·.name)).Nodup) : s.Valid := by
  refine hs.nodup.map_on fun row hrow row' hrow' hk => ?_
  obtain ⟨he, hname⟩ := Prod.mk.inj hk
  have hnames : ((s.rowsOf row'.event).map (·.name)).Nodup := (h _).names ▸ hn _
  exact List.inj_on_of_nodup_map hnames (mem_rowsOf.2 ⟨hrow, he⟩) (mem_rowsOf.2 ⟨hrow', rfl⟩) hname

/-! ## Reading many rows -/

theorem Ordered.isBefore {s : Storage} (hs : s.Ordered) (e : String) :
    (s.rowsOf e).Pairwise fun a b => a.isBefore b := by
  refine (List.Pairwise.filter _ hs).imp fun h => ?_
  rw [Row.isBefore_iff]
  omega

theorem Ordered.eq_of_number {s : Storage} (hs : s.Ordered) {a b : Row} (ha : a ∈ s.rows)
    (hb : b ∈ s.rows) (h : a.number = b.number) : a = b := by
  have hn : (s.rows.map (·.number)).Nodup :=
    List.pairwise_map.2 (List.Pairwise.imp (fun h => Nat.ne_of_lt h.2) hs)
  exact List.inj_on_of_nodup_map hn ha hb h

/-- **Reading the rows of an event** gives the reactions that they hold. -/
theorem forEvent_eq_ok {s : Storage} (hs : s.Ordered) {e : String} {rs : List Reaction}
    (h : s.Holds e rs) : s.forEvent e = .ok rs := by
  rw [forEvent, ← rowsOf, List.mergeSort_of_pairwise (hs.isBefore e)]
  exact Except.mapM_eq_ok.2 h

section ByEvent

variable {s : Storage} {fs : Fields (List Reaction)}

theorem mem_byEvent (hall : ∀ row ∈ s.rows, ∃ f ∈ fs, f.1 = row.event) {row : Row} :
    row ∈ (fs.flatMap fun f => s.rowsOf f.1) ↔ row ∈ s.rows := by
  rw [List.mem_flatMap]
  constructor
  · rintro ⟨f, -, h⟩
    exact (mem_rowsOf.1 h).1
  · intro h
    obtain ⟨f, hf, he⟩ := hall row h
    exact ⟨f, hf, mem_rowsOf.2 ⟨h, he.symm⟩⟩

theorem sorted_byEvent (hs : s.Ordered) (hfs : fs.Sorted) :
    (fs.flatMap fun f => s.rowsOf f.1).Pairwise fun a b => a.isBeforeByEvent b := by
  refine List.pairwise_flatMap.2 ⟨fun f _ => ?_, hfs.imp fun hlt a ha b hb => ?_⟩
  · refine (hs.isBefore f.1).imp_of_mem fun ha hb h => Row.isBeforeByEvent_iff.2 (Or.inr ⟨?_, h⟩)
    rw [(mem_rowsOf.1 ha).2, (mem_rowsOf.1 hb).2]
  · rw [Row.isBeforeByEvent_iff, (mem_rowsOf.1 ha).2, (mem_rowsOf.1 hb).2]
    exact Or.inl hlt

theorem nodup_byEvent (hs : s.Ordered) (hfs : fs.Sorted) :
    (fs.flatMap fun f => s.rowsOf f.1).Nodup := by
  refine List.pairwise_flatMap.2 ⟨fun f _ => hs.nodup.filter _, hfs.imp fun hlt a ha b hb hab => ?_⟩
  rw [← (mem_rowsOf.1 ha).2, ← (mem_rowsOf.1 hb).2, hab] at hlt
  exact String.lt_irrefl _ hlt

/-- The rows by event, if some fields have all their events. -/
theorem mergeSort_byEvent (hs : s.Ordered) (hfs : fs.Sorted)
    (hall : ∀ row ∈ s.rows, ∃ f ∈ fs, f.1 = row.event) :
    s.rows.mergeSort Row.isBeforeByEvent = fs.flatMap fun f => s.rowsOf f.1 := by
  have hperm : s.rows.Perm (fs.flatMap fun f => s.rowsOf f.1) :=
    (List.perm_ext_iff_of_nodup hs.nodup (nodup_byEvent hs hfs)).2 fun _ => (mem_byEvent hall).symm
  refine List.Perm.eq_of_pairwise (fun a b ha hb hab hba => ?_)
    (Row.pairwise_isBeforeByEvent s.rows) (sorted_byEvent hs hfs) ((List.mergeSort_perm _ _).trans hperm)
  exact hs.eq_of_number (List.mem_mergeSort.1 ha) ((mem_byEvent hall).1 hb)
    (Row.number_eq_of_isBefore hab hba)

/-- **Reading all rows** gives the reactions that they hold, event by event. -/
theorem all_eq_ok (hs : s.Ordered) (hfs : fs.Sorted)
    (h : ∀ e, s.Holds e ((Fields.get? e fs).getD [])) : s.all = .ok (fs.flatMap (·.2)) := by
  have hall : ∀ row ∈ s.rows, ∃ f ∈ fs, f.1 = row.event := by
    intro row hrow
    cases hf : Fields.get? row.event fs with
    | some rs => exact ⟨_, Fields.mem_of_get? hf, rfl⟩
    | none =>
      have hnone := h row.event
      rw [hf, Option.getD_none, Holds, List.forall₂_nil_right_iff] at hnone
      have hmem : row ∈ s.rowsOf row.event := mem_rowsOf.2 ⟨hrow, rfl⟩
      rw [hnone] at hmem
      cases hmem
  rw [all, mergeSort_byEvent hs hfs hall]
  refine Except.mapM_eq_ok.2 (List.rel_flatten ?_)
  rw [List.forall₂_map_left_iff, List.forall₂_map_right_iff, List.forall₂_same]
  intro f hf
  have := h f.1
  rwa [hfs.get?_of_mem hf, Option.getD_some] at this

end ByEvent

/-! ## Reading rows in any order -/

section Members

variable {s : Storage} {r : Reaction}

theorem exists_row_of_mapM {rows : List Row} {rs : List Reaction}
    (h : rows.mapM Row.reaction = .ok rs) (hr : r ∈ rs) : ∃ row ∈ rows, row.reaction = .ok r := by
  have hrows := Except.mapM_eq_ok.1 h
  obtain ⟨i, hi, rfl⟩ := List.getElem_of_mem hr
  have hi' : i < rows.length := hrows.length_eq ▸ hi
  exact ⟨rows[i], List.getElem_mem hi', hrows.get hi' hi⟩

theorem exists_row_of_forEvent {e : String} {rs : List Reaction} (h : s.forEvent e = .ok rs)
    (hr : r ∈ rs) : ∃ row ∈ s.rows, row.reaction = .ok r := by
  obtain ⟨row, hrow, hread⟩ := exists_row_of_mapM h hr
  exact ⟨row, List.mem_of_mem_filter (List.mem_mergeSort.1 hrow), hread⟩

theorem exists_row_of_all {rs : List Reaction} (h : s.all = .ok rs) (hr : r ∈ rs) :
    ∃ row ∈ s.rows, row.reaction = .ok r := by
  obtain ⟨row, hrow, hread⟩ := exists_row_of_mapM h hr
  exact ⟨row, List.mem_mergeSort.1 hrow, hread⟩

end Members

/-- Readable rows give their reactions, each once. -/
theorem exists_all_eq_ok {s : Storage} (hs : s.Valid)
    (hread : ∀ row ∈ s.rows, ∃ r, row.reaction = .ok r) :
    ∃ rs, s.all = .ok rs ∧ (rs.map Reaction.key).Nodup ∧ rs.map Reaction.normalize = rs ∧
      ∀ r, r ∈ rs ↔ s.get r.event r.name = .ok (some r) := by
  have hperm := List.mergeSort_perm s.rows Row.isBeforeByEvent
  obtain ⟨rs, hrs⟩ := Except.exists_mapM_eq_ok fun row hrow => hread row (hperm.mem_iff.1 hrow)
  have hall := Except.mapM_eq_ok.1 hrs
  have hkeys : (s.rows.mergeSort Row.isBeforeByEvent).map Row.key = rs.map Reaction.key := by
    rw [← List.forall₂_eq_eq_eq, List.forall₂_map_left_iff, List.forall₂_map_right_iff]
    exact hall.imp fun row r hr => (Row.reaction_ok hr).1.symm
  have hreactions : (s.rows.mergeSort Row.isBeforeByEvent).map Row.reaction = rs.map .ok := by
    rw [← List.forall₂_eq_eq_eq, List.forall₂_map_left_iff, List.forall₂_map_right_iff]
    exact hall
  have hmem (r : Reaction) : r ∈ rs ↔ ∃ row ∈ s.rows, row.reaction = .ok r := by
    have h : (Except.ok r : Except ServiceError Reaction) ∈ rs.map .ok ↔ r ∈ rs := by simp
    rw [← h, ← hreactions, List.mem_map]
    simp only [hperm.mem_iff]
  refine ⟨rs, hrs, hkeys ▸ (hperm.map Row.key).nodup_iff.2 hs, ?_, fun r => ?_⟩
  · refine (List.map_congr_left fun r hr => ?_).trans (List.map_id rs)
    obtain ⟨row, -, hrow⟩ := (hmem r).1 hr
    exact (Row.reaction_ok hrow).2
  · rw [hmem, get_eq_ok]
    refine exists_congr fun row => ⟨fun ⟨hrow, hr⟩ => ?_, fun ⟨hf, hr⟩ => ?_⟩
    · exact ⟨(find?_eq_some hs).2 ⟨hrow, (Row.reaction_ok hr).1.symm⟩, hr⟩
    · exact ⟨((find?_eq_some hs).1 hf).1, hr⟩

end Storage

end Reactor
