/-
  Records and their texts.

  * `Slot` is a field of the records of a type, with what it holds for a value and the
    texts of that; `Layout` is the form of such records;
  * `Layout.Lays`: a text lays out a value.  Its fields stand in any order, under any of
    their names and between any other fields; one that holds its default may be missing:
    `Lays.perm`, `Lays.rename`, `Lays.add`, `Lays.leave`;
  * `Layout.Faulty`: a text gives a field twice, or not at all though it has no default.
-/
import Mathlib.Data.List.Nodup
import Reactor.Proofs.Json.Phrases
import Reactor.Json.Decoder

namespace Reactor.Json

open Decoder

/-- A name of a field, with any escapes. -/
def Decoder.Field.Names (f : Field) (k : List Char) : Prop :=
  ∃ n : String, f.isNamed n = true ∧ Denotes k n.toList

/-- A field of the records of a type. -/
structure Slot (α : Type) extends Decoder.Field where
  /-- what it holds -/
  json : α → Json
  /-- the texts of what it holds -/
  Spells : α → Phrase → Prop
  /-- texts that are at fault for what they hold -/
  Flawed : Phrase → Prop

/-- The form of the records of a type. -/
structure Layout (α : Type) where
  title : String
  slots : List (Slot α)

namespace Layout

variable {α : Type}

/-- What reads a record. -/
def form (L : Layout α) : Decoder Json := record L.title (L.slots.map (·.toField))

/-- The JSON of a record. -/
def toJson (L : Layout α) (a : α) : Json := .obj (L.slots.map fun s => (s.name, s.json a))

/-- Each field has names of its own. -/
def Distinct (L : Layout α) : Prop := (L.slots.flatMap fun s => s.name :: s.aliases).Nodup

/-- A text of a value: an object whose known fields spell what they hold, none of them
    twice; those that are not given hold their defaults. -/
inductive Lays (L : Layout α) (a : α) : Phrase → Prop
  | intro {ms : List (List Char × Phrase)}
      (named : ∀ m ∈ ms, ∃ n : String, Denotes m.1 n.toList)
      (wellFormed : ∀ m ∈ ms, m.2.WellFormed)
      (spelled : ∀ m ∈ ms, ∀ s ∈ L.slots, s.Names m.1 → s.Spells a m.2)
      (once : ∀ s ∈ L.slots, ∀ m m', [m, m'].Sublist ms → s.Names m.1 → ¬ s.Names m'.1)
      (given : ∀ s ∈ L.slots, (∃ m ∈ ms, s.Names m.1) ∨ s.default? = some (s.json a)) :
      Lays L a (.object ms)

/-- A text of no value: an object that gives a field twice or lacks one, or holds such; or
    a list of values that is too short or holds such. -/
inductive Faulty (L : Layout α) : Phrase → Prop
  | twice {ms : List (List Char × Phrase)} {m m' : List Char × Phrase} {s : Slot α} :
      s ∈ L.slots → [m, m'].Sublist ms → s.Names m.1 → s.Names m'.1 → Faulty L (.object ms)
  | missing {ms : List (List Char × Phrase)} {s : Slot α} :
      s ∈ L.slots → s.default? = none → (∀ m ∈ ms, ¬ s.Names m.1) → Faulty L (.object ms)
  | inside {ms : List (List Char × Phrase)} {m : List Char × Phrase} {s : Slot α} :
      s ∈ L.slots → m ∈ ms → s.Names m.1 → s.Flawed m.2 → Faulty L (.object ms)
  | short {ts : List Phrase} {s : Slot α} :
      s ∈ L.slots.drop ts.length → s.default? = none → Faulty L (.list ts)
  | listed {ts : List Phrase} {t : Phrase} {s : Slot α} :
      (s, t) ∈ L.slots.zip ts → s.Flawed t → Faulty L (.list ts)

/-! ## Names -/

theorem mem_of_isNamed {f : Field} {n : String} (h : f.isNamed n = true) :
    n ∈ f.name :: f.aliases := by
  rcases Bool.or_eq_true_iff.1 h with hname | halias
  · exact List.mem_cons.2 (.inl (beq_iff_eq.1 hname).symm)
  · exact List.mem_cons.2 (.inr (List.contains_iff_mem.1 halias))

theorem isNamed_name (f : Field) : f.isNamed f.name = true :=
  Bool.or_eq_true_iff.2 (.inl (beq_iff_eq.2 rfl))

variable {L : Layout α} {a : α} {s s' : Slot α} {k : List Char} {n : String}

theorem Distinct.unique (hd : L.Distinct) (hs : s ∈ L.slots) (hs' : s' ∈ L.slots)
    (h : s.isNamed n = true) (h' : s'.isNamed n = true) : s = s' := by
  have hdisjoint := (List.nodup_flatMap.1 hd).2
  have : Std.Symm (Function.onFun List.Disjoint fun s : Slot α => s.name :: s.aliases) :=
    ⟨fun _ _ h => h.symm⟩
  refine Classical.byContradiction fun hne => ?_
  exact hdisjoint.forall hs hs' hne (mem_of_isNamed h) (mem_of_isNamed h')

theorem Distinct.unique_names (hd : L.Distinct) (hs : s ∈ L.slots) (hs' : s' ∈ L.slots)
    (h : s.Names k) (h' : s'.Names k) : s = s' := by
  obtain ⟨n, hn, hk⟩ := h
  obtain ⟨n', hn', hk'⟩ := h'
  cases hk.unique hk'
  exact hd.unique hs hs' hn hn'

theorem Distinct.unique_name (hd : L.Distinct) (hs : s ∈ L.slots) (hs' : s' ∈ L.slots)
    (h : s.name = s'.name) : s = s' :=
  hd.unique hs hs' (isNamed_name s.toField) (h ▸ isNamed_name s'.toField)

/-- A field that has a name, or none has. -/
theorem find?_slots (L : Layout α) (hk : Denotes k n.toList) :
    (∃ s ∈ L.slots, s.Names k ∧
      (L.slots.map (·.toField)).find? (·.isNamed n) = some s.toField) ∨
    ((∀ s ∈ L.slots, ¬ s.Names k) ∧ (L.slots.map (·.toField)).find? (·.isNamed n) = none) := by
  cases hfind : (L.slots.map (·.toField)).find? (·.isNamed n) with
  | some f =>
    obtain ⟨s, hs, rfl⟩ := List.mem_map.1 (List.mem_of_find?_eq_some hfind)
    have hn := List.find?_some hfind
    exact .inl ⟨s, hs, ⟨n, hn, hk⟩, rfl⟩
  | none =>
    refine .inr ⟨fun s hs hnames => ?_, rfl⟩
    obtain ⟨n', hn', hk'⟩ := hnames
    cases hk.unique hk'
    exact List.find?_eq_none.1 hfind _ (List.mem_map_of_mem hs) hn'

/-! ## Other texts of the same value -/

theorem once_iff {ms : List (List Char × Phrase)} :
    (∀ m m', [m, m'].Sublist ms → s.Names m.1 → ¬ s.Names m'.1) ↔
      ms.Pairwise fun m m' => ¬(s.Names m.1 ∧ s.Names m'.1) := by
  rw [List.pairwise_iff_forall_sublist]
  exact ⟨fun h m m' hsub hm => h m m' hsub hm.1 hm.2, fun h m m' hsub hm hm' => h hsub ⟨hm, hm'⟩⟩

/-- Fields may be reordered. -/
theorem Lays.perm {ms ms' : List (List Char × Phrase)} (h : L.Lays a (.object ms))
    (hperm : ms.Perm ms') : L.Lays a (.object ms') := by
  cases h with
  | intro named wellFormed spelled once given =>
    refine .intro (fun m hm => named m (hperm.mem_iff.2 hm))
      (fun m hm => wellFormed m (hperm.mem_iff.2 hm)) (fun m hm => spelled m (hperm.mem_iff.2 hm))
      (fun s hs => ?_) (fun s hs => ?_)
    · exact once_iff.2 (hperm.pairwise (once_iff.1 (once s hs)) fun h => mt And.symm h)
    · exact (given s hs).imp (fun ⟨m, hm, hnames⟩ => ⟨m, hperm.mem_iff.1 hm, hnames⟩) id

/-- Unknown fields may be added. -/
theorem Lays.add {ms : List (List Char × Phrase)} {t : Phrase} (h : L.Lays a (.object ms))
    (hk : Denotes k n.toList) (hunknown : ∀ s ∈ L.slots, s.isNamed n = false) (ht : t.WellFormed) :
    L.Lays a (.object ((k, t) :: ms)) := by
  have hnames : ∀ s ∈ L.slots, ¬ s.Names k := by
    rintro s hs ⟨n', hn', hk'⟩
    cases hk.unique hk'
    exact absurd hn' (by rw [hunknown s hs]; exact Bool.false_ne_true)
  cases h with
  | intro named wellFormed spelled once given =>
    refine .intro (List.forall_mem_cons.2 ⟨⟨n, hk⟩, named⟩) (List.forall_mem_cons.2 ⟨ht, wellFormed⟩)
      (List.forall_mem_cons.2 ⟨fun s hs hm => absurd hm (hnames s hs), spelled⟩)
      (fun s hs => ?_) (fun s hs => ?_)
    · exact once_iff.2 (List.pairwise_cons.2
        ⟨fun _ _ hm => hnames s hs hm.1, once_iff.1 (once s hs)⟩)
    · exact (given s hs).imp (fun ⟨m, hm, hm'⟩ => ⟨m, List.mem_cons_of_mem _ hm, hm'⟩) id

/-- A field may stand under another of its names. -/
theorem Lays.rename {ms : List (List Char × Phrase)} {k' : List Char} {t : Phrase}
    (hd : L.Distinct) (h : L.Lays a (.object ((k, t) :: ms))) (hs : s ∈ L.slots) (hk : s.Names k)
    (hk' : s.Names k') : L.Lays a (.object ((k', t) :: ms)) := by
  have hsame : ∀ s' ∈ L.slots, s'.Names k' → s'.Names k := fun s' hs' h' =>
    hd.unique_names hs hs' hk' h' ▸ hk
  cases h with
  | intro named wellFormed spelled once given =>
    have hn := hk'
    obtain ⟨n, -, hn⟩ := hn
    obtain ⟨hspelled, spelled⟩ := List.forall_mem_cons.1 spelled
    refine .intro (List.forall_mem_cons.2 ⟨⟨n, hn⟩, (List.forall_mem_cons.1 named).2⟩)
      (List.forall_mem_cons.2 (List.forall_mem_cons.1 wellFormed))
      (List.forall_mem_cons.2 ⟨fun s' hs' hm => hspelled s' hs' (hsame s' hs' hm), spelled⟩)
      (fun s' hs' => ?_) (fun s' hs' => ?_)
    · obtain ⟨hfirst, hrest⟩ := List.pairwise_cons.1 (once_iff.1 (once s' hs'))
      exact once_iff.2 (List.pairwise_cons.2
        ⟨fun m hm hnames => hfirst m hm ⟨hsame s' hs' hnames.1, hnames.2⟩, hrest⟩)
    · rcases given s' hs' with ⟨m, hm, hnames⟩ | hdefault
      · rcases List.mem_cons.1 hm with rfl | hm
        · exact .inl ⟨_, List.mem_cons_self, hd.unique_names hs hs' hk hnames ▸ hk'⟩
        · exact .inl ⟨m, List.mem_cons_of_mem _ hm, hnames⟩
      · exact .inr hdefault

/-- A field that holds its default may be left out. -/
theorem Lays.leave {ms : List (List Char × Phrase)} {t : Phrase} (hd : L.Distinct)
    (h : L.Lays a (.object ((k, t) :: ms))) (hs : s ∈ L.slots) (hk : s.Names k)
    (hdefault : s.default? = some (s.json a)) : L.Lays a (.object ms) := by
  cases h with
  | intro named wellFormed spelled once given =>
    refine .intro (List.forall_mem_cons.1 named).2 (List.forall_mem_cons.1 wellFormed).2
      (List.forall_mem_cons.1 spelled).2 (fun s' hs' => ?_) (fun s' hs' => ?_)
    · exact once_iff.2 (List.pairwise_cons.1 (once_iff.1 (once s' hs'))).2
    · rcases given s' hs' with ⟨m, hm, hnames⟩ | hdefault'
      · rcases List.mem_cons.1 hm with rfl | hm
        · exact .inr (hd.unique_names hs hs' hk hnames ▸ hdefault)
        · exact .inl ⟨m, hm, hnames⟩
      · exact .inr hdefault'

end Layout

end Reactor.Json
