/-
  What decoders give.

  * `Decoder.Gives` says that a decoder may give a value, `Field.Holds` that a
    field may hold it;
  * `gives_table`: a table gives sorted fields, each given by its items;
  * `gives_record`: a record gives the object of its fields in their order.
-/
import Mathlib.Data.List.Forall2
import Reactor.Proofs.Except
import Reactor.Proofs.Fields
import Reactor.Json.Decoder

namespace Reactor.Json.Decoder

/-- A value that a decoder gives for some text. -/
def Gives (d : Decoder Json) (j : Json) : Prop := ∃ depth cs r, d depth cs = .ok (j, r)

/-- A value that a field of a record may hold: the one for a missing field, or
    one that is read. -/
def Field.Holds (f : Field) (j : Json) : Prop := f.default? = some j ∨ Gives f.read j

/-- Fields of a record with values that they may hold. -/
def Filled (fields : List Field) (all : List (String × Json)) : Prop :=
  List.Forall₂ (fun f p => p.1 = f.name ∧ f.Holds p.2) fields all

/-! ## Tables -/

theorem entries_ok {item : Decoder Json} {depth : Nat} {j : Json} {r : List Char} :
    ∀ {fuel : Nat} {first : Bool} {acc : Fields Json} {cs : List Char}, acc.Sorted →
      (∀ f ∈ acc, Gives item f.2) → entries (item depth) fuel first acc cs = .ok (j, r) →
      ∃ fs : Fields Json, j = .obj fs ∧ fs.Sorted ∧ ∀ f ∈ fs, Gives item f.2
  | 0, _, _, _, _, _, h => by cases h
  | fuel + 1, first, acc, cs, hs, hg, h => by
    rw [entries] at h
    obtain ⟨next, -, h⟩ := Except.bind_eq_ok.1 h
    match next, h with
    | none, h =>
      obtain ⟨r', -, h⟩ := Except.bind_eq_ok.1 h
      cases h
      exact ⟨acc, rfl, hs, hg⟩
    | some (k, cs'), h =>
      obtain ⟨cs'', -, h⟩ := Except.bind_eq_ok.1 h
      obtain ⟨⟨v, r'⟩, hv, h⟩ := Except.bind_eq_ok.1 h
      refine entries_ok hs.insert (fun f hf => ?_) h
      rcases Fields.mem_insert hf with rfl | hf
      · exact ⟨depth, cs'', r', hv⟩
      · exact hg f hf

/-- A refusal gives nothing. -/
theorem refuse_ne_ok {α : Type} {expected : String} {cs : List Char} {a : α} :
    (refuse expected cs : Except ReadError α) ≠ .ok a := by
  have hbind {β : Type} {x : Except ReadError β} {e : β → ReadError} :
      (x >>= fun b => (.error (e b) : Except ReadError α)) ≠ .ok a := by
    cases x <;> exact nofun
  unfold refuse
  split
  · exact nofun
  · exact hbind
  · exact hbind
  · exact hbind
  · exact hbind
  · exact nofun
  · exact nofun
  · split
    · exact hbind
    · exact nofun

theorem gives_table {item : Decoder Json} {j : Json} (h : Gives (table item) j) :
    ∃ fs : Fields Json, j = .obj fs ∧ fs.Sorted ∧ ∀ f ∈ fs, Gives item f.2 := by
  obtain ⟨depth, cs, r, h⟩ := h
  unfold table at h
  split at h
  · cases h
  · exact entries_ok List.Pairwise.nil (by simp) h
  · exact absurd h refuse_ne_ok

/-! ## Records -/

theorem complete_ok {found : Fields Json} :
    ∀ {fields : List Field} {all : List (String × Json)},
      (∀ f ∈ fields, ∀ j, Fields.get? f.name found = some j → f.Holds j) →
      complete found fields = .ok all → Filled fields all
  | [], _, _, h => by cases h; exact .nil
  | f :: fields, all, hf, h => by
    have ih {rest} (h : complete found fields = .ok rest) : Filled fields rest :=
      complete_ok (fun g hg => hf g (List.mem_cons_of_mem _ hg)) h
    rw [complete] at h
    split at h
    · rename_i j hj
      obtain ⟨rest, hrest, h⟩ := Except.bind_eq_ok.1 h
      cases h
      exact .cons ⟨rfl, hf f List.mem_cons_self j hj⟩ (ih hrest)
    · rename_i j _ hd
      obtain ⟨rest, hrest, h⟩ := Except.bind_eq_ok.1 h
      cases h
      exact .cons ⟨rfl, Or.inl hd⟩ (ih hrest)
    · cases h

theorem recordFields_ok {fields : List Field}
    (hn : ∀ f ∈ fields, ∀ g ∈ fields, f.name = g.name → f = g) {depth : Nat} {j : Json}
    {r : List Char} :
    ∀ {fuel : Nat} {first : Bool} {found : Fields Json} {cs : List Char},
      (∀ f ∈ fields, ∀ j, Fields.get? f.name found = some j → f.Holds j) →
      recordFields fields depth fuel first found cs = .ok (j, r) →
      ∃ all, Filled fields all ∧ j = .obj all
  | 0, _, _, _, _, h => by cases h
  | fuel + 1, first, found, cs, hf, h => by
    rw [recordFields] at h
    obtain ⟨next, -, h⟩ := Except.bind_eq_ok.1 h
    match next, h with
    | none, h =>
      obtain ⟨all, hall, h⟩ := Except.bind_eq_ok.1 h
      obtain ⟨r', -, h⟩ := Except.bind_eq_ok.1 h
      cases h
      exact ⟨all, complete_ok hf hall, rfl⟩
    | some (k, cs'), h =>
      simp only at h
      split at h
      · rename_i f hk
        have hmem := List.mem_of_find?_eq_some hk
        split at h
        · cases h
        · obtain ⟨cs'', -, h⟩ := Except.bind_eq_ok.1 h
          obtain ⟨⟨v, r'⟩, hv, h⟩ := Except.bind_eq_ok.1 h
          refine recordFields_ok hn (fun g hg j hj => ?_) h
          rw [Fields.get?_insert] at hj
          split at hj
          · rename_i hname
            cases hj
            rw [hn g hg f hmem hname]
            exact Or.inr ⟨depth, cs'', r', hv⟩
          · exact hf g hg j hj
      · obtain ⟨_, -, h⟩ := Except.bind_eq_ok.1 h
        obtain ⟨_, -, h⟩ := Except.bind_eq_ok.1 h
        exact recordFields_ok hn hf h

theorem recordItems_ok {title : String} {depth : Nat} {j : Json} {r : List Char} :
    ∀ {fields : List Field} {n : Nat} {acc : List (String × Json)} {cs : List Char},
      recordItems title depth fields n acc cs = .ok (j, r) →
      ∃ all, Filled fields all ∧ j = .obj (acc.reverse ++ all)
  | [], n, acc, cs, h => by
    rw [recordItems] at h
    obtain ⟨_, -, h⟩ := Except.bind_eq_ok.1 h
    cases h
    exact ⟨[], .nil, by rw [List.append_nil]⟩
  | f :: fields, n, acc, cs, h => by
    rw [recordItems] at h
    obtain ⟨next, -, h⟩ := Except.bind_eq_ok.1 h
    split at h
    · rename_i v hd
      obtain ⟨all, hall, rfl⟩ := recordItems_ok h
      exact ⟨(f.name, v) :: all, .cons ⟨rfl, Or.inl hd⟩ hall, by simp⟩
    · cases h
    · obtain ⟨⟨v, r'⟩, hv, h⟩ := Except.bind_eq_ok.1 h
      obtain ⟨all, hall, rfl⟩ := recordItems_ok h
      exact ⟨(f.name, v) :: all, .cons ⟨rfl, Or.inr ⟨_, _, _, hv⟩⟩ hall, by simp⟩

theorem gives_record {title : String} {fields : List Field} {j : Json}
    (hn : ∀ f ∈ fields, ∀ g ∈ fields, f.name = g.name → f = g) (h : Gives (record title fields) j) :
    ∃ all, Filled fields all ∧ j = .obj all := by
  obtain ⟨depth, cs, r, h⟩ := h
  unfold record at h
  split at h
  · cases h
  · cases h
  · exact recordFields_ok hn (fun f _ j hj => by cases hj) h
  · exact recordItems_ok h
  · exact absurd h refuse_ne_ok

end Reactor.Json.Decoder
