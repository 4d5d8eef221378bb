/-
  The store through two views: the reactions to each event, in order, and the
  reaction under each key.

  * `Valid` says that a store is as its operations leave it; a valid store is
    determined by the reactions to each event (`Valid.ext`);
  * `add_eq_ok` and `remove_eq_ok` say when the operations succeed and what they
    do, `matchesFor_replace` what that means for the reactions to each event;
  * `Valid.add` and `Valid.remove`: both keep a store valid;
  * `seed_all`: a valid store is restored from its reactions;
  * `mem_all_of_add`, `mem_all_of_remove` and `mem_all_of_seed`: where active
    reactions are from;
  * `History` are the stores that operations lead to, with the reactions in the
    order in which they came, and `History.matchesFor`: this is the order in which
    those to an event are found.
-/
import Mathlib.Data.List.Nodup
import Reactor.Engine.Store
import Reactor.Proofs.Except
import Reactor.Proofs.Fields

namespace Reactor.Store

/-- The reaction under a key, if it is active. -/
def find? (s : Store) (event name : String) : Option Reaction :=
  (s.matchesFor event).find? (·.name == name)

/-- Events are in order and none is without reactions; each reaction is filed
    under its event, where no other has its name. -/
structure Valid (s : Store) : Prop where
  sorted : s.byEvent.Sorted
  nonempty : ∀ f ∈ s.byEvent, f.2 ≠ []
  filed : ∀ e, ∀ r ∈ s.matchesFor e, r.event = e
  named : ∀ e, ((s.matchesFor e).map (·.name)).Nodup

theorem valid_empty : empty.Valid :=
  ⟨.nil, by simp [empty], by simp [empty, matchesFor], by simp [empty, matchesFor]⟩

/-! ## The operations -/

theorem get_eq_ok {s : Store} {e n : String} {r : Reaction} :
    s.get e n = .ok r ↔ s.find? e n = some r := by
  unfold get find? matchesFor
  cases Fields.get? e s.byEvent with
  | none => exact ⟨nofun, nofun⟩
  | some rs =>
    simp only [Option.getD_some]
    cases rs.find? (·.name == n) with
    | none => exact ⟨nofun, nofun⟩
    | some r' => exact ⟨fun h => congrArg _ (Except.ok.inj h), fun h => congrArg _ (Option.some.inj h)⟩

theorem get_isOk (s : Store) (e n : String) : (s.get e n).isOk = (s.find? e n).isSome := by
  cases h : s.find? e n with
  | some r => rw [get_eq_ok.2 h]; rfl
  | none =>
    cases hg : s.get e n with
    | error f => rfl
    | ok r => rw [get_eq_ok.1 hg] at h; cases h

theorem replace_concat (s : Store) (e : String) (rs : List Reaction) (r : Reaction) :
    s.replace e (rs ++ [r]) = ⟨Fields.insert e (rs ++ [r]) s.byEvent⟩ := by
  unfold replace
  split
  · rename_i h; simp at h
  · rfl

theorem any_name_iff (s : Store) (r : Reaction) :
    (s.matchesFor r.event).any (·.name == r.name) = (s.find? r.event r.name).isSome := by
  rw [find?, Bool.eq_iff_iff, List.find?_isSome, List.any_eq_true]

theorem add_eq_ok {s t : Store} {r : Reaction} :
    s.add r = .ok t ↔
      s.find? r.event r.name = none ∧ t = s.replace r.event (s.matchesFor r.event ++ [r]) := by
  rw [add, any_name_iff, replace_concat]
  cases h : s.find? r.event r.name with
  | none => exact ⟨fun h => ⟨rfl, (Except.ok.inj h).symm⟩, fun h => congrArg Except.ok h.2.symm⟩
  | some r' => exact ⟨nofun, nofun⟩

theorem add_of_find? {s : Store} {r r' : Reaction} (h : s.find? r.event r.name = some r') :
    s.add r = .error (.duplicate r.event r.name) := by
  rw [add, any_name_iff, h]; rfl

theorem remove_eq_ok {s t : Store} {e n : String} {r : Reaction} :
    s.remove e n = .ok (r, t) ↔
      s.find? e n = some r ∧ t = s.replace e ((s.matchesFor e).eraseP (·.name == n)) := by
  rw [remove, Except.bind_eq_ok]
  constructor
  · rintro ⟨r', hr', h⟩
    cases h
    exact ⟨get_eq_ok.1 hr', rfl⟩
  · rintro ⟨hr, rfl⟩
    exact ⟨r, get_eq_ok.2 hr, rfl⟩

theorem remove_of_find?_eq_none {s : Store} {e n : String} (h : s.find? e n = none) :
    s.remove e n = .error (.noReactionsForEvent e) ∨ s.remove e n = .error (.reactionNotFound e n) := by
  rw [remove]
  unfold find? matchesFor at h
  unfold get
  cases hg : Fields.get? e s.byEvent with
  | none => exact Or.inl rfl
  | some rs =>
    rw [hg, Option.getD_some] at h
    simp only [h]
    exact Or.inr rfl

/-! ## The reactions to each event -/

theorem matchesFor_replace {s : Store} (hs : s.Valid) (e : String) (rs : List Reaction)
    (e' : String) : (s.replace e rs).matchesFor e' = if e' = e then rs else s.matchesFor e' := by
  unfold replace
  split
  · rw [matchesFor, Fields.get?_erase _ _ hs.sorted]; split <;> rfl
  · rw [matchesFor, Fields.get?_insert]; split <;> rfl

theorem Valid.replace {s : Store} (hs : s.Valid) {e : String} {rs : List Reaction}
    (hf : ∀ r ∈ rs, r.event = e) (hn : (rs.map (·.name)).Nodup) : (s.replace e rs).Valid where
  sorted := by
    unfold Store.replace; split
    · exact hs.sorted.erase
    · exact hs.sorted.insert
  nonempty := by
    unfold Store.replace; split
    · exact fun f h => hs.nonempty f (Fields.mem_of_mem_erase h)
    · intro f h
      rcases Fields.mem_insert h with rfl | h
      · assumption
      · exact hs.nonempty f h
  filed e' := by
    rw [matchesFor_replace hs]; split
    · rename_i he; exact he ▸ hf
    · exact hs.filed e'
  named e' := by
    rw [matchesFor_replace hs]; split
    · exact hn
    · exact hs.named e'

theorem find?_eq_some {s : Store} (hs : s.Valid) {e n : String} {r : Reaction} :
    s.find? e n = some r ↔ r ∈ s.matchesFor e ∧ r.name = n := by
  constructor
  · intro h
    exact ⟨List.mem_of_find?_eq_some h, by simpa using List.find?_some h⟩
  · rintro ⟨hr, rfl⟩
    cases h : s.find? e r.name with
    | none => simpa using List.find?_eq_none.1 h r hr
    | some r' =>
      have hn : r'.name = r.name := by simpa using List.find?_some h
      rw [List.inj_on_of_nodup_map (hs.named e) (List.mem_of_find?_eq_some h) hr hn]

theorem find?_eq_none {s : Store} {e n : String} :
    s.find? e n = none ↔ ∀ r ∈ s.matchesFor e, r.name ≠ n := by
  simp [find?, List.find?_eq_none]

theorem Valid.add {s t : Store} (hs : s.Valid) {r : Reaction} (h : s.add r = .ok t) : t.Valid := by
  obtain ⟨hnone, rfl⟩ := add_eq_ok.1 h
  refine hs.replace (fun r' hr' => ?_) ?_
  · rcases List.mem_append.1 hr' with hr' | hr'
    · exact hs.filed _ r' hr'
    · rw [List.mem_singleton.1 hr']
  · rw [List.map_append]
    refine List.nodup_append.2 ⟨hs.named _, List.nodup_singleton _, ?_⟩
    intro n hn m hm
    obtain ⟨r', hr', rfl⟩ := List.mem_map.1 hn
    rw [List.map_singleton, List.mem_singleton] at hm
    exact hm ▸ find?_eq_none.1 hnone r' hr'

theorem Valid.remove {s t : Store} (hs : s.Valid) {e n : String} {r : Reaction}
    (h : s.remove e n = .ok (r, t)) : t.Valid := by
  obtain ⟨-, rfl⟩ := remove_eq_ok.1 h
  refine hs.replace (fun r' hr' => hs.filed e r' (List.mem_of_mem_eraseP hr')) ?_
  exact (hs.named e).sublist (List.eraseP_sublist.map _)

theorem eraseP_name {n : String} : ∀ {rs : List Reaction}, (rs.map (·.name)).Nodup →
    rs.eraseP (·.name == n) = rs.filter (·.name != n)
  | [], _ => rfl
  | r :: rs, h => by
    obtain ⟨hr, hrs⟩ := List.nodup_cons.1 h
    by_cases hn : r.name = n
    · have hrest : rs.filter (·.name != n) = rs := by
        refine List.filter_eq_self.2 fun r' hr' => ?_
        have : r'.name ≠ n := fun h' => hr (List.mem_map.2 ⟨r', hr', h'.trans hn.symm⟩)
        simpa using this
      rw [List.eraseP_cons_of_pos (by simpa using hn), List.filter_cons_of_neg (by simpa using hn),
        hrest]
    · rw [List.eraseP_cons_of_neg (by simpa using hn), List.filter_cons_of_pos (by simpa using hn),
        eraseP_name hrs]

theorem matchesFor_add {s t : Store} (hs : s.Valid) {r : Reaction} (h : s.add r = .ok t)
    (e : String) :
    t.matchesFor e = if e = r.event then s.matchesFor e ++ [r] else s.matchesFor e := by
  obtain ⟨-, rfl⟩ := add_eq_ok.1 h
  rw [matchesFor_replace hs]
  split
  · rename_i he; rw [he]
  · rfl

theorem matchesFor_remove {s t : Store} (hs : s.Valid) {e n : String} {r : Reaction}
    (h : s.remove e n = .ok (r, t)) (e' : String) :
    t.matchesFor e' = if e' = e then (s.matchesFor e).filter (·.name != n) else s.matchesFor e' := by
  obtain ⟨-, rfl⟩ := remove_eq_ok.1 h
  rw [matchesFor_replace hs, eraseP_name (hs.named e)]

/-! ## The reaction under each key -/

theorem find?_add {s t : Store} (hs : s.Valid) {r : Reaction} (h : s.add r = .ok t) (e n : String) :
    t.find? e n = if e = r.event ∧ n = r.name then some r else s.find? e n := by
  have hnone := (add_eq_ok.1 h).1
  rw [find?, matchesFor_add hs h]
  by_cases he : e = r.event
  · subst he
    rw [if_pos rfl, List.find?_append, ← find?]
    by_cases hn : n = r.name
    · subst hn
      rw [hnone, if_pos ⟨rfl, rfl⟩]; simp
    · rw [if_neg fun h => hn h.2, List.find?_singleton, if_neg (by simpa using Ne.symm hn)]
      simp
  · rw [if_neg he, if_neg fun h => he h.1, find?]

theorem find?_remove {s t : Store} (hs : s.Valid) {e n : String} {r : Reaction}
    (h : s.remove e n = .ok (r, t)) (e' n' : String) :
    t.find? e' n' = if e' = e ∧ n' = n then none else s.find? e' n' := by
  rw [find?, matchesFor_remove hs h]
  by_cases he : e' = e
  · subst he
    rw [if_pos rfl, List.find?_filter]
    by_cases hn : n' = n
    · subst hn
      rw [if_pos ⟨rfl, rfl⟩, List.find?_eq_none]
      intro r' _; simp
    · rw [if_neg fun h => hn h.2, find?]
      congr 1; funext r'
      by_cases hr : r'.name = n'
      · simp [hr, hn]
      · simp [hr]
  · rw [if_neg he, if_neg fun h => he h.1, find?]

/-- **A valid store is determined by the reactions to each event.** -/
theorem Valid.ext {s t : Store} (hs : s.Valid) (ht : t.Valid)
    (h : ∀ e, s.matchesFor e = t.matchesFor e) : s = t := by
  have hget {u : Store} (hu : u.Valid) (e : String) :
      Fields.get? e u.byEvent = if u.matchesFor e = [] then none else some (u.matchesFor e) := by
    unfold matchesFor
    cases hf : Fields.get? e u.byEvent with
    | none => rfl
    | some rs => rw [Option.getD_some, if_neg (hu.nonempty _ (Fields.mem_of_get? hf))]
  have hfs : s.byEvent = t.byEvent :=
    hs.sorted.ext ht.sorted fun e => by rw [hget hs, hget ht, h e]
  cases s; cases t; cases hfs; rfl

/-! ## All reactions -/

theorem event_of_mem {s : Store} (hs : s.Valid) {f : String × List Reaction} (hf : f ∈ s.byEvent) :
    s.matchesFor f.1 = f.2 ∧ ∀ r ∈ f.2, r.event = f.1 := by
  have hget : s.matchesFor f.1 = f.2 := by rw [matchesFor, hs.sorted.get?_of_mem hf]; rfl
  exact ⟨hget, hget ▸ hs.filed f.1⟩

theorem filter_all {s : Store} (hs : s.Valid) (e : String) :
    s.all.filter (·.event == e) = s.matchesFor e := by
  rw [all, List.filter_flatMap, matchesFor, ← Fields.flatMap_ite hs.sorted]
  refine List.flatMap_congr fun f hf => ?_
  have hfiled := (event_of_mem hs hf).2
  by_cases he : f.1 = e
  · rw [if_pos he, List.filter_eq_self]
    intro r hr; simp [hfiled r hr, he]
  · rw [if_neg he, List.filter_eq_nil_iff]
    intro r hr; simp [hfiled r hr, he]

theorem nodup_all {s : Store} (hs : s.Valid) : (s.all.map Reaction.key).Nodup := by
  refine List.pairwise_map.2 (List.pairwise_flatMap.2 ⟨fun f hf => ?_, ?_⟩)
  · have hn := hs.named f.1
    rw [(event_of_mem hs hf).1] at hn
    exact (List.pairwise_map.1 hn).imp fun h hk => h (congrArg Prod.snd hk)
  · refine hs.sorted.imp_of_mem fun ha hb hlt r hr r' hr' hk => ?_
    rw [← (event_of_mem hs ha).2 r hr, ← (event_of_mem hs hb).2 r' hr',
      show r.event = r'.event from congrArg Prod.fst hk] at hlt
    exact String.lt_irrefl _ hlt

theorem seed_of_nodup : ∀ {rs : List Reaction} {s : Store}, s.Valid → (rs.map Reaction.key).Nodup →
    (∀ r ∈ rs, s.find? r.event r.name = none) →
    (s.seed rs).1 = [] ∧ (s.seed rs).2.Valid ∧
      ∀ e, (s.seed rs).2.matchesFor e = s.matchesFor e ++ rs.filter (·.event == e)
  | [], s, hs, _, _ => ⟨rfl, hs, fun e => (List.append_nil _).symm⟩
  | r :: rs, s, hs, hn, hnone => by
    obtain ⟨hr, hn⟩ := List.nodup_cons.1 hn
    have hadd := add_eq_ok.2 ⟨hnone r List.mem_cons_self, rfl⟩
    have hs' := hs.add hadd
    have hnone' : ∀ r' ∈ rs, (s.replace r.event (s.matchesFor r.event ++ [r])).find? r'.event
        r'.name = none := by
      intro r' hr'
      have hk : ¬ (r'.event = r.event ∧ r'.name = r.name) := fun h =>
        hr (List.mem_map.2 ⟨r', hr', Prod.ext h.1 h.2⟩)
      rw [find?_add hs hadd, if_neg hk]
      exact hnone r' (List.mem_cons_of_mem _ hr')
    obtain ⟨hrefused, hvalid, hmatches⟩ := seed_of_nodup hs' hn hnone'
    rw [seed, hadd]
    refine ⟨hrefused, hvalid, fun e => (hmatches e).trans ?_⟩
    rw [matchesFor_add hs hadd]
    by_cases he : e = r.event
    · rw [if_pos he, List.filter_cons_of_pos (by simp [he]), List.append_assoc,
        List.singleton_append]
    · rw [if_neg he, List.filter_cons_of_neg (by simpa using Ne.symm he)]

/-- **A valid store is restored from its reactions**, none of which is refused. -/
theorem seed_all {s : Store} (hs : s.Valid) : empty.seed s.all = ([], s) := by
  obtain ⟨hrefused, hvalid, hmatches⟩ :=
    seed_of_nodup valid_empty (nodup_all hs) fun _ _ => rfl
  refine Prod.ext hrefused (hvalid.ext hs fun e => ?_)
  rw [hmatches, filter_all hs]; rfl

/-! ## Where active reactions are from -/

section Members

variable {s t : Store} {r r' : Reaction}

theorem mem_all_of_mem_matchesFor {e : String} (h : r ∈ s.matchesFor e) : r ∈ s.all := by
  unfold matchesFor at h
  cases hget : Fields.get? e s.byEvent with
  | none => simp [hget] at h
  | some rs =>
    rw [hget, Option.getD_some] at h
    exact List.mem_flatMap.2 ⟨(e, rs), Fields.mem_of_get? hget, h⟩

theorem mem_all_of_replace {e : String} {rs : List Reaction} (h : r ∈ (s.replace e rs).all) :
    r ∈ rs ∨ r ∈ s.all := by
  obtain ⟨f, hf, hr⟩ := List.mem_flatMap.1 h
  unfold replace at hf
  split at hf
  · exact Or.inr (List.mem_flatMap.2 ⟨f, Fields.mem_of_mem_erase hf, hr⟩)
  · rcases Fields.mem_insert hf with rfl | hf
    · exact Or.inl hr
    · exact Or.inr (List.mem_flatMap.2 ⟨f, hf, hr⟩)

theorem mem_all_of_add (h : s.add r = .ok t) (hr : r' ∈ t.all) : r' = r ∨ r' ∈ s.all := by
  obtain ⟨-, rfl⟩ := add_eq_ok.1 h
  rcases mem_all_of_replace hr with hr | hr
  · rcases List.mem_append.1 hr with hr | hr
    · exact Or.inr (mem_all_of_mem_matchesFor hr)
    · exact Or.inl (List.mem_singleton.1 hr)
  · exact Or.inr hr

theorem mem_all_of_remove {e n : String} (h : s.remove e n = .ok (r, t)) (hr : r' ∈ t.all) :
    r' ∈ s.all := by
  obtain ⟨-, rfl⟩ := remove_eq_ok.1 h
  rcases mem_all_of_replace hr with hr | hr
  · exact mem_all_of_mem_matchesFor (List.mem_of_mem_eraseP hr)
  · exact hr

theorem mem_all_of_seed {rs : List Reaction} (hr : r ∈ (s.seed rs).2.all) :
    r ∈ rs ∨ r ∈ s.all := by
  induction rs generalizing s with
  | nil => exact Or.inr hr
  | cons r' rs ih =>
    unfold seed at hr
    split at hr
    · rename_i t ht
      rcases ih hr with h | h
      · exact Or.inl (List.mem_cons_of_mem _ h)
      · rcases mem_all_of_add ht h with rfl | h
        · exact Or.inl List.mem_cons_self
        · exact Or.inr h
    · rcases ih hr with h | h
      · exact Or.inl (List.mem_cons_of_mem _ h)
      · exact Or.inr h

theorem mem_all_of_get {e n : String} (h : s.get e n = .ok r) : r ∈ s.all :=
  mem_all_of_mem_matchesFor (List.mem_of_find?_eq_some (get_eq_ok.1 h))

end Members

/-! ## Histories -/

/-- A change of the store: a reaction is added or taken away. -/
inductive Edit (s : Store) : Store → Prop
  | add {t : Store} {r : Reaction} : s.add r = .ok t → Edit s t
  | remove {t : Store} {e n : String} {r : Reaction} : s.remove e n = .ok (r, t) → Edit s t

/-- A store to which changes of the empty one have led, with the reactions that
    are left, in the order in which they came. -/
inductive History : List Reaction → Store → Prop
  | empty : History [] .empty
  | add {log : List Reaction} {s t : Store} {r : Reaction} :
      History log s → s.add r = .ok t → History (log ++ [r]) t
  | remove {log : List Reaction} {s t : Store} {e n : String} {r : Reaction} :
      History log s → s.remove e n = .ok (r, t) →
      History (log.filter fun r => !(r.event == e && r.name == n)) t

variable {log : List Reaction} {s t : Store}

theorem History.edit (h : History log s) (he : Edit s t) : ∃ log, History log t := by
  cases he with
  | add hadd => exact ⟨_, h.add hadd⟩
  | remove hremove => exact ⟨_, h.remove hremove⟩

theorem History.valid (h : History log s) : s.Valid := by
  induction h with
  | empty => exact valid_empty
  | add _ hadd ih => exact ih.add hadd
  | remove _ hremove ih => exact ih.remove hremove

/-- **The reactions to an event are found in the order in which they came.** -/
theorem History.matchesFor (h : History log s) (e : String) :
    s.matchesFor e = log.filter (·.event == e) := by
  induction h with
  | empty => rfl
  | @add log s t r h hadd ih =>
    rw [matchesFor_add h.valid hadd, ih, List.filter_append]
    by_cases he : e = r.event
    · rw [if_pos he, List.filter_cons_of_pos (by simp [he]), List.filter_nil]
    · rw [if_neg he, List.filter_cons_of_neg (by simpa using Ne.symm he), List.filter_nil,
        List.append_nil]
  | @remove log s t e' n r h hremove ih =>
    rw [matchesFor_remove h.valid hremove, List.filter_filter]
    by_cases he : e = e'
    · subst he
      rw [if_pos rfl, ih, List.filter_filter]
      refine List.filter_congr fun r' _ => ?_
      cases r'.event == e <;> simp [bne]
    · rw [if_neg he, ih]
      refine List.filter_congr fun r' _ => ?_
      by_cases hr : r'.event = e
      · simp [hr, he]
      · simp [hr]

end Reactor.Store
