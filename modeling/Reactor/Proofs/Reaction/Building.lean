/-
  Reactions built step by step.

  A step is added under its name, and one without a name under a name made from
  the number of steps there, which another step may already have, or may come to
  have.

  * `withSteps` adds steps one by one; `keys` are the names that they are to have;
  * `step?_withSteps`: if those differ, each step is found under its own;
  * `nodup_keys_of_length`: if there are as many steps as were added, they differ;
  * `keepsAll_iff`: so all steps are kept, if and only if none has the name that
    is made for another.
-/
import Mathlib.Data.List.Nodup
import Mathlib.Data.List.Induction
import Mathlib.Data.List.Indexes
import Reactor.Proofs.Fields
import Reactor.Reaction

namespace Reactor

namespace Reaction

/-- A reaction with steps added one by one. -/
def withSteps (r : Reaction) (ss : List ActionStep) : Reaction := ss.foldl withStep r

/-- The name that is made for a step when there are so many. -/
def madeName (n : Nat) : String := "step" ++ toString n

/-- The name that a step has in a reaction when there were so many. -/
def keyAt (n : Nat) (s : ActionStep) : String := if s.name = "" then madeName n else s.name

/-- The names that steps are to have, if none of them is lost. -/
def keys (ss : List ActionStep) : List String := ss.mapIdx keyAt

/-- Steps with names have different ones. -/
def NamesDiffer (ss : List ActionStep) : Prop :=
  ss.Pairwise fun s t => s.name ≠ "" → s.name ≠ t.name

/-- The name of a step at a place of a list that is added from its beginning. -/
def nameAt (r : Reaction) (ss : List ActionStep) (i : Nat) (s : ActionStep) : String :=
  keyAt (r.withSteps (ss.take i)).steps.length s

/-- All steps of a list that are added to a reaction are kept. -/
structure KeepsAll (r : Reaction) (ss : List ActionStep) : Prop where
  /-- there is one entry for each step -/
  count : (r.withSteps ss).steps.length = ss.length
  /-- which is named by its key -/
  named : ∀ k t, (k, t) ∈ (r.withSteps ss).steps → t.name = k
  /-- no step takes the place of one before it -/
  fresh : ∀ i s, ss[i]? = some s → (r.withSteps (ss.take i)).step? (nameAt r ss i s) = none
  /-- and each is there at the end, unchanged but for a name that it did not have -/
  found : ∀ i s, ss[i]? = some s → (s.name ≠ "" → nameAt r ss i s = s.name) ∧
    (r.withSteps ss).step? (nameAt r ss i s) = some { s with name := nameAt r ss i s }

/-! ## Adding steps -/

section
variable (r : Reaction) (ss : List ActionStep) (s : ActionStep)

theorem withSteps_concat : r.withSteps (ss ++ [s]) = (r.withSteps ss).withStep s := by
  simp [withSteps]

theorem withStep_steps : (r.withStep s).steps =
    Fields.insert (keyAt r.steps.length s) { s with name := keyAt r.steps.length s } r.steps := rfl

theorem step?_withStep (k : String) : (r.withStep s).step? k =
    if k = keyAt r.steps.length s then some { s with name := k } else r.step? k := by
  rw [step?, withStep_steps, Fields.get?_insert]
  split
  · rename_i hk; rw [hk]
  · rfl

theorem length_withStep {r : Reaction} (h : r.steps.Sorted) :
    (r.withStep s).steps.length =
      if (r.step? (keyAt r.steps.length s)).isSome then r.steps.length else r.steps.length + 1 := by
  rw [withStep_steps, Fields.length_insert h]
  rfl

end

variable {name event script : String} {ss : List ActionStep}

theorem sorted_withSteps : ((bare name event script).withSteps ss).steps.Sorted := by
  induction ss using List.reverseRecOn with
  | nil => exact List.Pairwise.nil
  | append_singleton ss s ih =>
    rw [withSteps_concat, withStep_steps]
    exact ih.insert

theorem length_withSteps_le : ((bare name event script).withSteps ss).steps.length ≤ ss.length := by
  induction ss using List.reverseRecOn with
  | nil => exact Nat.le_refl 0
  | append_singleton ss s ih =>
    rw [withSteps_concat, length_withStep s sorted_withSteps, List.length_append,
      List.length_singleton]
    split <;> omega

/-- Each step is named by its key. -/
theorem name_of_step? {k : String} {t : ActionStep}
    (h : ((bare name event script).withSteps ss).step? k = some t) : t.name = k := by
  induction ss using List.reverseRecOn with
  | nil => cases h
  | append_singleton ss s ih =>
    rw [withSteps_concat, step?_withStep] at h
    split at h
    · cases h; rfl
    · exact ih h

/-! ## The keys of steps -/

theorem keys_concat (s : ActionStep) : keys (ss ++ [s]) = keys ss ++ [keyAt ss.length s] := by
  rw [keys, List.mapIdx_append_one, keys]

theorem mem_keys {k : String} : k ∈ keys ss ↔ ∃ i s, ss[i]? = some s ∧ keyAt i s = k := by
  rw [keys, List.mem_mapIdx]
  constructor
  · rintro ⟨i, hi, rfl⟩
    exact ⟨i, ss[i], List.getElem?_eq_getElem hi, rfl⟩
  · rintro ⟨i, s, hs, rfl⟩
    obtain ⟨hi, rfl⟩ := List.getElem?_eq_some_iff.1 hs
    exact ⟨i, hi, rfl⟩

theorem nodup_keys_concat {s : ActionStep} :
    (keys (ss ++ [s])).Nodup ↔ (keys ss).Nodup ∧ keyAt ss.length s ∉ keys ss := by
  rw [keys_concat, List.nodup_append]
  simp only [List.nodup_singleton, List.mem_singleton]
  constructor
  · rintro ⟨hnodup, -, hne⟩
    exact ⟨hnodup, fun h => hne _ h _ rfl rfl⟩
  · rintro ⟨hnodup, hnot⟩
    refine ⟨hnodup, trivial, ?_⟩
    rintro k hk _ rfl rfl
    exact hnot hk

theorem getElem?_concat_eq_some {i : Nat} {s t : ActionStep} :
    (ss ++ [s])[i]? = some t ↔ ss[i]? = some t ∨ i = ss.length ∧ s = t := by
  rcases Nat.lt_trichotomy i ss.length with hi | rfl | hi
  · simp [List.getElem?_append_left hi, Nat.ne_of_lt hi]
  · simp
  · rw [List.getElem?_eq_none (by simp; omega), List.getElem?_eq_none (by omega)]
    simp [Nat.ne_of_gt hi]

/-- **If no two steps are to have the same name**, each is found under its own. -/
theorem step?_withSteps (h : (keys ss).Nodup) :
    ((bare name event script).withSteps ss).steps.length = ss.length ∧
      ∀ k t, ((bare name event script).withSteps ss).step? k = some t ↔
        ∃ i s, ss[i]? = some s ∧ keyAt i s = k ∧ { s with name := k } = t := by
  induction ss using List.reverseRecOn with
  | nil => simp [withSteps, bare, step?]
  | append_singleton ss s ih =>
    obtain ⟨hnodup, hnot⟩ := nodup_keys_concat.1 h
    obtain ⟨hlength, hfound⟩ := ih hnodup
    have hnone : ((bare name event script).withSteps ss).step? (keyAt ss.length s) = none := by
      rw [Option.eq_none_iff_forall_ne_some]
      intro t ht
      obtain ⟨i, s', hs', hkey, -⟩ := (hfound _ t).1 ht
      exact hnot (mem_keys.2 ⟨i, s', hs', hkey⟩)
    constructor
    · rw [withSteps_concat, length_withStep s sorted_withSteps, hlength, hnone]
      simp
    · intro k t
      rw [withSteps_concat, step?_withStep, hlength]
      simp only [getElem?_concat_eq_some]
      constructor
      · intro ht
        split at ht
        · rename_i hk
          exact ⟨ss.length, s, Or.inr ⟨rfl, rfl⟩, hk.symm, Option.some.inj ht⟩
        · obtain ⟨i, s', hs', hrest⟩ := (hfound k t).1 ht
          exact ⟨i, s', Or.inl hs', hrest⟩
      · rintro ⟨i, s', hs' | ⟨rfl, rfl⟩, rfl, rfl⟩
        · rw [if_neg fun hk => hnot (mem_keys.2 ⟨i, s', hs', hk⟩)]
          exact (hfound _ _).2 ⟨i, s', hs', rfl, rfl⟩
        · rw [if_pos rfl]

/-- **If there are as many steps as were added**, they were to have different
    names. -/
theorem nodup_keys_of_length
    (h : ((bare name event script).withSteps ss).steps.length = ss.length) : (keys ss).Nodup := by
  induction ss using List.reverseRecOn with
  | nil => simp [keys]
  | append_singleton ss s ih =>
    have hle : ((bare name event script).withSteps ss).steps.length ≤ ss.length :=
      length_withSteps_le
    rw [withSteps_concat, length_withStep s sorted_withSteps, List.length_append,
      List.length_singleton] at h
    split at h
    · omega
    · rename_i hnone
      have hlength : ((bare name event script).withSteps ss).steps.length = ss.length := by omega
      have hnodup := ih hlength
      refine nodup_keys_concat.2 ⟨hnodup, fun hmem => hnone ?_⟩
      obtain ⟨i, s', hs', hkey⟩ := mem_keys.1 hmem
      rw [hlength, ((step?_withSteps hnodup).2 _ _).2 ⟨i, s', hs', hkey, rfl⟩]
      rfl

/-! ## Names that are made -/

theorem madeName_inj {m n : Nat} : madeName m = madeName n ↔ m = n := by
  constructor
  · intro h
    have hdigits : Nat.toDigits 10 m = Nat.toDigits 10 n := by
      simpa [madeName] using congrArg String.toList h
    have hvalue (n : Nat) : Nat.ofDigitChars 10 (Nat.toDigits 10 n) 0 = n :=
      Nat.ofDigitChars_toDigits (by decide) (by decide)
    rw [← hvalue m, hdigits, hvalue n]
  · rintro rfl; rfl

theorem madeName_ne_empty (n : Nat) : madeName n ≠ "" := by
  intro h
  have := congrArg String.toList h
  simp [madeName] at this

/-! ## When all steps are kept -/

theorem NamesDiffer.eq_of_name (h : NamesDiffer ss) {i j : Nat} {s t : ActionStep}
    (hs : ss[i]? = some s) (ht : ss[j]? = some t) (hne : s.name ≠ "") (heq : s.name = t.name) :
    i = j := by
  obtain ⟨hi, rfl⟩ := List.getElem?_eq_some_iff.1 hs
  obtain ⟨hj, rfl⟩ := List.getElem?_eq_some_iff.1 ht
  rw [NamesDiffer, List.pairwise_iff_getElem] at h
  rcases Nat.lt_trichotomy i j with hlt | rfl | hlt
  · exact absurd heq (h i j hi hj hlt hne)
  · rfl
  · exact absurd heq.symm (h j i hj hi hlt (heq ▸ hne))

theorem nodup_keys_of_eq
    (h : ∀ i j s t, ss[i]? = some s → ss[j]? = some t → keyAt i s = keyAt j t → i = j) :
    (keys ss).Nodup := by
  rw [keys, List.Nodup, List.pairwise_iff_getElem]
  intro i j hi hj hlt heq
  rw [List.length_mapIdx] at hi hj
  rw [List.getElem_mapIdx, List.getElem_mapIdx] at heq
  have := h i j _ _ (List.getElem?_eq_getElem hi) (List.getElem?_eq_getElem hj) heq
  omega

theorem eq_of_nodup_keys (h : (keys ss).Nodup) {i j : Nat} {s t : ActionStep}
    (hs : ss[i]? = some s) (ht : ss[j]? = some t) (heq : keyAt i s = keyAt j t) : i = j := by
  obtain ⟨hi, rfl⟩ := List.getElem?_eq_some_iff.1 hs
  obtain ⟨hj, rfl⟩ := List.getElem?_eq_some_iff.1 ht
  have hi' : i < (keys ss).length := by rwa [keys, List.length_mapIdx]
  have hj' : j < (keys ss).length := by rwa [keys, List.length_mapIdx]
  have hkey : (keys ss)[i] = (keys ss)[j] := by simpa [keys] using heq
  exact (List.Nodup.getElem_inj_iff h).1 hkey

/-- The names that steps are to have differ, if those that are made are not those
    of others. -/
theorem nodup_keys_iff (h : NamesDiffer ss) :
    (keys ss).Nodup ↔
      ∀ i s, ss[i]? = some s → s.name = "" → ∀ t ∈ ss, t.name ≠ madeName i := by
  constructor
  · intro hnodup i s hs hempty t ht heq
    obtain ⟨j, hj⟩ := List.mem_iff_getElem?.1 ht
    have hkey : keyAt i s = keyAt j t := by
      simp [keyAt, hempty, heq, madeName_ne_empty]
    obtain rfl := eq_of_nodup_keys hnodup hs hj hkey
    rw [hs] at hj
    cases hj
    exact madeName_ne_empty i (heq.symm.trans hempty)
  · intro hmade
    refine nodup_keys_of_eq fun i j s t hs ht heq => ?_
    unfold keyAt at heq
    by_cases hsn : s.name = "" <;> by_cases htn : t.name = ""
    · rw [if_pos hsn, if_pos htn] at heq
      exact madeName_inj.1 heq
    · rw [if_pos hsn, if_neg htn] at heq
      exact absurd heq.symm (hmade i s hs hsn t (List.mem_of_getElem? ht))
    · rw [if_neg hsn, if_pos htn] at heq
      exact absurd heq (hmade j t ht htn s (List.mem_of_getElem? hs))
    · rw [if_neg hsn, if_neg htn] at heq
      exact h.eq_of_name hs ht hsn heq

/-- Steps that are to have different names are all kept. -/
theorem keepsAll_of_nodup (h : (keys ss).Nodup) : KeepsAll (bare name event script) ss := by
  have htake (i : Nat) : (keys (ss.take i)).Nodup := by
    refine nodup_keys_of_eq fun j j' s t hs ht heq => ?_
    rw [List.getElem?_take] at hs ht
    split at hs <;> split at ht
    · exact eq_of_nodup_keys h hs ht heq
    all_goals contradiction
  have hat {i : Nat} {s : ActionStep} (hs : ss[i]? = some s) :
      nameAt (bare name event script) ss i s = keyAt i s := by
    have hi : i < ss.length := (List.getElem?_eq_some_iff.1 hs).1
    rw [nameAt, (step?_withSteps (htake i)).1, List.length_take, Nat.min_eq_left (Nat.le_of_lt hi)]
  refine ⟨(step?_withSteps h).1, ?_, ?_, ?_⟩
  · intro k t ht
    exact name_of_step? (sorted_withSteps.get?_of_mem ht)
  · intro i s hs
    rw [Option.eq_none_iff_forall_ne_some, hat hs]
    intro t ht
    obtain ⟨j, s', hs', hkey, -⟩ := ((step?_withSteps (htake i)).2 _ t).1 ht
    rw [List.getElem?_take] at hs'
    split at hs'
    · have := eq_of_nodup_keys h hs' hs hkey
      omega
    · cases hs'
  · intro i s hs
    rw [hat hs]
    refine ⟨fun hne => if_neg hne, ?_⟩
    exact ((step?_withSteps h).2 _ _).2 ⟨i, s, hs, rfl, rfl⟩

/-- **When all steps are kept.**  Of steps whose names differ, added one by one to
    a reaction without steps, none is lost, if and only if none has the name that
    is made for another at its place. -/
theorem keepsAll_iff (name event script : String) {ss : List ActionStep} (h : NamesDiffer ss) :
    KeepsAll (bare name event script) ss ↔
      ∀ (i : Nat) (s : ActionStep), ss[i]? = some s → s.name = "" →
        ∀ t ∈ ss, t.name ≠ "step" ++ toString i := by
  constructor
  · intro hkeeps
    exact (nodup_keys_iff h).1 (nodup_keys_of_length hkeeps.count)
  · intro hmade
    exact keepsAll_of_nodup ((nodup_keys_iff h).2 hmade)

/-- Two steps with names and two without, of which none is meant for the same. -/
theorem keepsAll_four :
    let ss : List ActionStep :=
      [⟨"", "dummy", "echo", "first"⟩, ⟨"ring", "dummy", "echo", ""⟩,
        ⟨"", "dummy", "dummy_action", ""⟩, ⟨"step1", "dummy", "echo", "last"⟩]
    NamesDiffer ss ∧ KeepsAll (bare "bell" "door" "") ss := by
  intro ss
  have hnames : NamesDiffer ss := by unfold NamesDiffer; decide
  refine ⟨hnames, (keepsAll_iff "bell" "door" "" hnames).2 ?_⟩
  intro i s hs
  obtain ⟨hi, rfl⟩ := List.getElem?_eq_some_iff.1 hs
  revert i
  decide +kernel

/-- A step that is lost to one without a name. -/
theorem step_lost :
    let ss : List ActionStep := [⟨"step1", "dummy", "echo", ""⟩, ⟨"", "dummy", "dummy_action", ""⟩]
    NamesDiffer ss ∧ ¬ KeepsAll (bare "bell" "door" "") ss ∧
      ((bare "bell" "door" "").withSteps ss).steps =
        [("step1", ⟨"step1", "dummy", "dummy_action", ""⟩)] := by
  intro ss
  have hsteps : ((bare "bell" "door" "").withSteps ss).steps =
      [("step1", ⟨"step1", "dummy", "dummy_action", ""⟩)] := by decide +kernel
  refine ⟨by unfold NamesDiffer; decide, fun hkeeps => ?_, hsteps⟩
  have hcount := hkeeps.count
  rw [hsteps] at hcount
  cases hcount

end Reaction

end Reactor
