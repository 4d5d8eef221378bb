/-
  Sorted fields as finite maps.

  * `get?_insert` and `get?_erase` say what the two operations do to each name,
    `Sorted.insert` and `Sorted.erase` that they keep the order;
  * `Sorted.ext`: sorted fields with the same values under all names are equal.
-/
import Reactor.Json.Value

namespace Reactor.Fields

variable {α β : Type}

theorem lt_of_not_lt_of_ne {a b : String} (h : ¬ a < b) (hne : a ≠ b) : b < a :=
  Decidable.byContradiction fun h' => hne (String.le_antisymm h' h)

@[simp] theorem get?_nil (k : String) : get? k ([] : Fields α) = none := rfl

theorem get?_cons (j k : String) (v : α) (fs : Fields α) :
    get? j ((k, v) :: fs) = if j = k then some v else get? j fs := rfl

theorem sorted_cons {k : String} {v : α} {fs : Fields α} :
    Sorted ((k, v) :: fs) ↔ (∀ f ∈ fs, k < f.1) ∧ Sorted fs :=
  List.pairwise_cons

/-! ## Looking up -/

theorem mem_of_get? {k : String} {v : α} : ∀ {fs : Fields α}, get? k fs = some v → (k, v) ∈ fs
  | [], h => by cases h
  | (k', v') :: fs, h => by
    rw [get?_cons] at h
    split at h
    · rename_i hk; cases h; subst hk; exact List.mem_cons_self
    · exact List.mem_cons_of_mem _ (mem_of_get? h)

theorem get?_eq_none {k : String} : ∀ {fs : Fields α}, (∀ f ∈ fs, f.1 ≠ k) → get? k fs = none
  | [], _ => rfl
  | (k', v') :: fs, h => by
    rw [get?_cons, if_neg (h (k', v') List.mem_cons_self).symm]
    exact get?_eq_none fun f hf => h f (List.mem_cons_of_mem _ hf)

theorem Sorted.get?_of_mem {k : String} {v : α} :
    ∀ {fs : Fields α}, Sorted fs → (k, v) ∈ fs → get? k fs = some v
  | (k', v') :: fs, hs, h => by
    obtain ⟨hlt, hs⟩ := sorted_cons.1 hs
    rw [get?_cons]
    rcases List.mem_cons.1 h with h | h
    · cases h; exact if_pos rfl
    · rw [if_neg (String.ne_of_lt (hlt _ h)).symm]; exact hs.get?_of_mem h

theorem Sorted.map {g : String → α → β} {fs : Fields α} (h : Sorted fs) :
    Sorted (fs.map fun f => (f.1, g f.1 f.2)) :=
  List.pairwise_map.2 h

/-- The part of sorted lists that one name has. -/
theorem flatMap_ite {k : String} : ∀ {fs : Fields (List α)}, Sorted fs →
    (fs.flatMap fun f => if f.1 = k then f.2 else []) = (get? k fs).getD []
  | [], _ => rfl
  | (k', v) :: fs, hs => by
    obtain ⟨hlt, hs⟩ := sorted_cons.1 hs
    rw [List.flatMap_cons, flatMap_ite hs, get?_cons]
    by_cases hk : k = k'
    · subst hk
      rw [if_pos rfl, if_pos rfl, get?_eq_none fun f hf => (String.ne_of_lt (hlt f hf)).symm,
        Option.getD_none, Option.getD_some, List.append_nil]
    · rw [if_neg (Ne.symm hk), if_neg hk, List.nil_append]

/-! ## Putting in -/

theorem get?_insert (j k : String) (v : α) :
    ∀ fs : Fields α, get? j (insert k v fs) = if j = k then some v else get? j fs
  | [] => rfl
  | (k', v') :: fs => by
    rw [insert]
    split
    · exact get?_cons ..
    · split
      · rename_i hk
        simp only [get?_cons, hk]
        split <;> rfl
      · rename_i hne
        simp only [get?_cons, get?_insert j k v fs]
        split
        · rename_i hj; rw [if_neg fun h => hne (h.symm.trans hj)]
        · rfl

theorem mem_insert {k : String} {v : α} {f : String × α} :
    ∀ {fs : Fields α}, f ∈ insert k v fs → f = (k, v) ∨ f ∈ fs
  | [], h => Or.inl (List.mem_singleton.1 h)
  | (k', v') :: fs, h => by
    rw [insert] at h
    split at h
    · exact List.mem_cons.1 h
    · split at h
      · exact (List.mem_cons.1 h).imp id (List.mem_cons_of_mem _)
      · rcases List.mem_cons.1 h with h | h
        · exact Or.inr (h ▸ List.mem_cons_self)
        · exact (mem_insert h).imp id (List.mem_cons_of_mem _)

theorem Sorted.insert {k : String} {v : α} :
    ∀ {fs : Fields α}, Sorted fs → Sorted (insert k v fs)
  | [], _ => List.pairwise_singleton _ _
  | (k', v') :: fs, hs => by
    obtain ⟨hlt, hs'⟩ := sorted_cons.1 hs
    rw [Fields.insert]
    split
    · rename_i hk
      refine sorted_cons.2 ⟨fun f hf => ?_, hs⟩
      rcases List.mem_cons.1 hf with rfl | hf
      · exact hk
      · exact String.lt_trans hk (hlt f hf)
    · rename_i hk
      split
      · rename_i he; subst he; exact sorted_cons.2 ⟨hlt, hs'⟩
      · rename_i hne
        refine sorted_cons.2 ⟨fun f hf => ?_, hs'.insert⟩
        rcases mem_insert hf with rfl | hf
        · exact lt_of_not_lt_of_ne hk hne
        · exact hlt f hf

/-- Putting in fields with different names, one after the other. -/
theorem get?_foldl_insert {k : String} {v : α} : ∀ {fs acc : Fields α}, (fs.map (·.1)).Nodup →
    (get? k (fs.foldl (fun out f => insert f.1 f.2 out) acc) = some v ↔
      (k, v) ∈ fs ∨ k ∉ fs.map (·.1) ∧ get? k acc = some v)
  | [], acc, _ => by simp
  | (k', v') :: fs, acc, hn => by
    rw [List.map_cons, List.nodup_cons] at hn
    rw [List.foldl_cons, get?_foldl_insert hn.2, get?_insert, List.mem_cons, List.map_cons,
      List.mem_cons, Prod.mk.injEq]
    by_cases hk : k = k'
    · subst hk
      have hnot : (k, v) ∉ fs := fun hmem => hn.1 (List.mem_map.2 ⟨_, hmem, rfl⟩)
      simp [hn.1, hnot, eq_comm]
    · simp [hk]

theorem sorted_foldl_insert {fs acc : Fields α} (h : Sorted acc) :
    Sorted (fs.foldl (fun out f => insert f.1 f.2 out) acc) := by
  induction fs generalizing acc with
  | nil => exact h
  | cons f fs ih => exact ih h.insert

theorem length_insert {k : String} {v : α} : ∀ {fs : Fields α}, Sorted fs →
    (insert k v fs).length = if (get? k fs).isSome then fs.length else fs.length + 1
  | [], _ => rfl
  | (k', v') :: fs, hs => by
    obtain ⟨hlt, hs'⟩ := sorted_cons.1 hs
    rw [insert, get?_cons]
    split
    · rename_i hk
      -- no name after the first is `k` either
      have hnone : get? k fs = none :=
        get?_eq_none fun f hf => (String.ne_of_lt (String.lt_trans hk (hlt f hf))).symm
      simp [String.ne_of_lt hk, hnone]
    · split
      · simp
      · rw [List.length_cons, length_insert hs']
        split <;> simp

/-! ## Taking away -/

theorem mem_of_mem_erase {k : String} {f : String × α} :
    ∀ {fs : Fields α}, f ∈ erase k fs → f ∈ fs
  | (k', v') :: fs, h => by
    rw [erase] at h
    split at h
    · exact List.mem_cons_of_mem _ h
    · rcases List.mem_cons.1 h with h | h
      · exact h ▸ List.mem_cons_self
      · exact List.mem_cons_of_mem _ (mem_of_mem_erase h)

theorem Sorted.erase {k : String} : ∀ {fs : Fields α}, Sorted fs → Sorted (erase k fs)
  | [], h => h
  | (k', v') :: fs, hs => by
    obtain ⟨hlt, hs'⟩ := sorted_cons.1 hs
    rw [Fields.erase]
    split
    · exact hs'
    · exact sorted_cons.2 ⟨fun f hf => hlt f (mem_of_mem_erase hf), hs'.erase⟩

theorem get?_erase (j k : String) : ∀ {fs : Fields α}, Sorted fs →
    get? j (erase k fs) = if j = k then none else get? j fs
  | [], _ => by rw [erase, get?_nil]; split <;> rfl
  | (k', v') :: fs, hs => by
    obtain ⟨hlt, hs'⟩ := sorted_cons.1 hs
    rw [erase]
    split
    · rename_i hk
      subst hk
      split
      · rename_i hj; exact get?_eq_none fun f hf => hj ▸ (String.ne_of_lt (hlt f hf)).symm
      · rename_i hj; rw [get?_cons, if_neg hj]
    · rename_i hne
      rw [get?_cons, get?_cons, get?_erase j k hs']
      split
      · rename_i hj; rw [if_neg fun h => hne (h.symm.trans hj)]
      · rfl

/-! ## Equality -/

/-- **Sorted fields are determined by their values.** -/
theorem Sorted.ext : ∀ {fs gs : Fields α}, Sorted fs → Sorted gs →
    (∀ k, get? k fs = get? k gs) → fs = gs
  | [], [], _, _, _ => rfl
  | [], (k, v) :: gs, _, _, h => by have := h k; simp [get?_cons] at this
  | (k, v) :: fs, [], _, _, h => by have := h k; simp [get?_cons] at this
  | (k, v) :: fs, (k', v') :: gs, hf, hg, h => by
    obtain ⟨hlt, hf'⟩ := sorted_cons.1 hf
    obtain ⟨hlt', hg'⟩ := sorted_cons.1 hg
    -- the least names agree, since each occurs in the other list
    have hk : k = k' := by
      by_cases hk : k = k'
      · exact hk
      · have h1 := h k
        have h2 := h k'
        rw [get?_cons, if_pos rfl, get?_cons, if_neg hk] at h1
        rw [get?_cons, if_neg (Ne.symm hk), get?_cons, if_pos rfl] at h2
        exact absurd (hlt' _ (mem_of_get? h1.symm)) (String.lt_asymm (hlt _ (mem_of_get? h2)))
    subst hk
    have hv := h k
    rw [get?_cons, get?_cons, if_pos rfl, if_pos rfl] at hv
    cases hv
    have hrest : ∀ j, get? j fs = get? j gs := by
      intro j
      by_cases hj : j = k
      · subst hj
        rw [get?_eq_none fun f hf => (String.ne_of_lt (hlt f hf)).symm,
          get?_eq_none fun f hf => (String.ne_of_lt (hlt' f hf)).symm]
      · have := h j
        rwa [get?_cons, get?_cons, if_neg hj, if_neg hj] at this
    rw [hf'.ext hg' hrest]

theorem Sorted.mem_iff {k : String} {v : α} {fs : Fields α} (h : Sorted fs) :
    (k, v) ∈ fs ↔ get? k fs = some v :=
  ⟨h.get?_of_mem, mem_of_get?⟩

/-- Putting in fields with different names only sorts them. -/
theorem perm_foldl_insert {fs : Fields α} (hn : (fs.map (·.1)).Nodup) :
    (fs.foldl (fun out f => insert f.1 f.2 out) []).Perm fs := by
  have hsorted : Sorted (fs.foldl (fun out f => insert f.1 f.2 out) []) := sorted_foldl_insert .nil
  have hnodup : fs.Nodup :=
    List.Pairwise.of_map (·.1) (fun f g hne heq => hne (congrArg (·.1) heq)) hn
  refine (List.perm_ext_iff_of_nodup ?_ hnodup).2 fun ⟨k, v⟩ => ?_
  · refine List.Pairwise.imp (fun {f g} hlt heq => ?_) hsorted
    subst heq
    exact String.lt_irrefl _ hlt
  · rw [hsorted.mem_iff, get?_foldl_insert hn]
    simp

/-- Sorted fields are equal if each is a field of the other. -/
theorem Sorted.ext_mem {fs gs : Fields α} (hf : Sorted fs) (hg : Sorted gs)
    (h : ∀ k v, (k, v) ∈ fs ↔ (k, v) ∈ gs) : fs = gs :=
  hf.ext hg fun k => Option.ext fun v => by rw [← hf.mem_iff, ← hg.mem_iff, h]

/-! ## Fields in any order -/

theorem Sorted.nodup {fs : Fields α} (h : Sorted fs) : (fs.map (·.1)).Nodup :=
  List.pairwise_map.2 (List.Pairwise.imp String.ne_of_lt h)

theorem lastOfEach_sorted : ∀ {fs : Fields α}, Sorted fs → lastOfEach fs = fs
  | [], _ => rfl
  | [(k, v)], _ => rfl
  | (k, v) :: (k', v') :: fs, h => by
    obtain ⟨hlt, hs⟩ := sorted_cons.1 h
    have hne : k ≠ k' := String.ne_of_lt (hlt _ List.mem_cons_self)
    rw [lastOfEach, lastOfEach_sorted hs]
    exact if_neg hne

theorem named_le_trans (a b c : String × α) (hab : decide (¬b.1 < a.1))
    (hbc : decide (¬c.1 < b.1)) : decide (¬c.1 < a.1) := by
  simp only [decide_eq_true_eq, String.not_lt] at *
  exact String.le_trans hab hbc

theorem named_le_total (a b : String × α) :
    (decide (¬b.1 < a.1) || decide (¬a.1 < b.1)) = true := by
  simp only [Bool.or_eq_true, decide_eq_true_eq, String.not_lt]
  exact String.le_total a.1 b.1

/-- **Sorted fields do not depend on the order** in which they are given. -/
theorem ofList_of_perm {fs : Fields α} {l : List (String × α)} (hs : Sorted fs) (h : l.Perm fs) :
    ofList l = fs := by
  have hn : (l.map (·.1)).Nodup := (h.map (·.1)).nodup_iff.2 hs.nodup
  unfold ofList
  split
  · exact Sorted.ext_mem (sorted_foldl_insert .nil) hs fun k v =>
      ((perm_foldl_insert hn).trans h).mem_iff
  · have hperm := List.mergeSort_perm l fun a b => decide (¬b.1 < a.1)
    have hsorted : Sorted (l.mergeSort fun a b => decide (¬b.1 < a.1)) := by
      have hle := List.pairwise_mergeSort (@named_le_trans α) (@named_le_total α) l
      have hne := List.pairwise_map.1 ((hperm.map (·.1)).nodup_iff.2 hn)
      refine (hle.and hne).imp fun h => ?_
      exact Decidable.byContradiction fun hlt =>
        h.2 (String.le_antisymm (of_decide_eq_true h.1) hlt)
    rw [lastOfEach_sorted hsorted]
    exact hsorted.ext_mem hs fun k v => (hperm.trans h).mem_iff

end Reactor.Fields
