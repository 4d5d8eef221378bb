/-
  The store as one list.

  A ledger is the list of the active reactions, in the order in which they came.
  It answers every call of the store by looking through all of them.

  * `Store.Call` are the calls of the store and `Store.Reply` what they give;
    `Store.answer` and `Store.answers` are the store's replies to one and to many;
  * `Ledger.answer` and `Ledger.answers` are those of a ledger;
  * `Ledger.byEvent` is a ledger sorted by event, stably, and `History.all_eq`: the
    store lists its reactions in this order;
  * `answer_eq`: a store and its ledger give the same reply, and stay together;
    `behaves_as_ledger`: so they do for any calls.
-/
import Reactor.Engine
import Reactor.Proofs.Store

namespace Reactor

namespace Store

/-- A call of the store. -/
inductive Call where
  | add (r : Reaction)
  | remove (event name : String)
  | get (event name : String)
  | matchesFor (event : String)
  | all
  | size
  | seed (rs : List Reaction)

/-- What a call gives. -/
inductive Reply where
  | reaction (r : Reaction)
  | refused (e : StoreError)
  | reactions (rs : List Reaction)
  | count (n : Nat)
  | refusals (es : List StoreError)
deriving DecidableEq

/-- What a store gives, and what it is after that. -/
def answer (s : Store) : Call → Reply × Store
  | .add r =>
    match s.add r with
    | .ok t => (.reaction r, t)
    | .error e => (.refused e, s)
  | .remove event name =>
    match s.remove event name with
    | .ok (r, t) => (.reaction r, t)
    | .error e => (.refused e, s)
  | .get event name =>
    match s.get event name with
    | .ok r => (.reaction r, s)
    | .error e => (.refused e, s)
  | .matchesFor event => (.reactions (s.matchesFor event), s)
  | .all => (.reactions s.all, s)
  | .size => (.count s.size, s)
  | .seed rs => (.refusals (s.seed rs).1, (s.seed rs).2)

/-- What a store gives to calls, one after the other. -/
def answers (s : Store) : List Call → List Reply × Store
  | [] => ([], s)
  | c :: cs => ((s.answer c).1 :: ((s.answer c).2.answers cs).1, ((s.answer c).2.answers cs).2)

end Store

/-- The active reactions, in the order in which they came. -/
abbrev Ledger := List Reaction

namespace Ledger

open Store

/-- The reaction under a key. -/
def under (log : Ledger) (event name : String) : Option Reaction :=
  log.find? fun r => r.event == event && r.name == name

/-- Why there is no reaction under a key. -/
def absence (log : Ledger) (event name : String) : StoreError :=
  if log.any (·.event == event) then .reactionNotFound event name else .noReactionsForEvent event

/-- All but the reaction under a key. -/
def without (log : Ledger) (event name : String) : Ledger :=
  log.filter fun r => !(r.event == event && r.name == name)

/-- Adds a reaction at the end, if there is none under its key. -/
def add (log : Ledger) (r : Reaction) : Except StoreError Ledger :=
  match log.under r.event r.name with
  | some _ => .error (.duplicate r.event r.name)
  | none => .ok (log ++ [r])

/-- Adds a reaction, and puts down why not if it is refused. -/
def enter (out : List StoreError × Ledger) (r : Reaction) : List StoreError × Ledger :=
  match add out.2 r with
  | .ok log => (out.1, log)
  | .error e => (out.1 ++ [e], out.2)

/-- Adds reactions one by one; with what was refused. -/
def addAll (log : Ledger) (rs : List Reaction) : List StoreError × Ledger := rs.foldl enter ([], log)

/-- The reactions sorted by event; those to one event stay in order. -/
def byEvent (log : Ledger) : List Reaction := log.mergeSort fun a b => decide (¬b.event < a.event)

/-- What a ledger gives, and what it is after that. -/
def answer (log : Ledger) : Call → Reply × Ledger
  | .add r =>
    match log.add r with
    | .ok log' => (.reaction r, log')
    | .error e => (.refused e, log)
  | .remove event name =>
    match log.under event name with
    | some r => (.reaction r, log.without event name)
    | none => (.refused (log.absence event name), log)
  | .get event name =>
    match log.under event name with
    | some r => (.reaction r, log)
    | none => (.refused (log.absence event name), log)
  | .matchesFor event => (.reactions (log.filter (·.event == event)), log)
  | .all => (.reactions log.byEvent, log)
  | .size => (.count log.length, log)
  | .seed rs => (.refusals (log.addAll rs).1, (log.addAll rs).2)

/-- What a ledger gives to calls, one after the other. -/
def answers (log : Ledger) : List Call → List Reply × Ledger
  | [] => ([], log)
  | c :: cs =>
    ((log.answer c).1 :: (answers (log.answer c).2 cs).1, (answers (log.answer c).2 cs).2)

/-! ## Sorting by event -/

theorem byEvent_perm (log : Ledger) : log.byEvent.Perm log := List.mergeSort_perm ..

theorem not_lt_trans (a b c : Reaction) (hab : decide (¬b.event < a.event))
    (hbc : decide (¬c.event < b.event)) : decide (¬c.event < a.event) := by
  simp only [decide_eq_true_eq] at *
  intro hlt
  by_cases heq : a.event = b.event
  · exact hbc (heq ▸ hlt)
  · exact hbc (String.lt_trans hlt (Fields.lt_of_not_lt_of_ne hab (Ne.symm heq)))

theorem not_lt_total (a b : Reaction) :
    (decide (¬b.event < a.event) || decide (¬a.event < b.event)) = true := by
  simp only [Bool.or_eq_true, decide_eq_true_eq]
  by_cases hlt : b.event < a.event
  · exact Or.inr (String.lt_asymm hlt)
  · exact Or.inl hlt

theorem pairwise_byEvent (log : Ledger) :
    log.byEvent.Pairwise fun a b => ¬b.event < a.event :=
  (List.pairwise_mergeSort not_lt_trans not_lt_total log).imp fun h => of_decide_eq_true h

/-- **Sorting is stable**: the reactions to one event stay in order. -/
theorem filter_byEvent (log : Ledger) (e : String) :
    log.byEvent.filter (·.event == e) = log.filter (·.event == e) := by
  have hsame : (log.filter (·.event == e)).Pairwise fun a b =>
      decide (¬b.event < a.event) = true := by
    refine List.pairwise_of_forall_mem_list fun a ha b hb => ?_
    have ha : a.event = e := by simpa using (List.mem_filter.1 ha).2
    have hb : b.event = e := by simpa using (List.mem_filter.1 hb).2
    rw [ha, hb]
    exact decide_eq_true (String.lt_irrefl e)
  have hsub := (List.sublist_mergeSort not_lt_trans not_lt_total hsame List.filter_sublist).filter
    (·.event == e)
  rw [List.filter_filter, List.filter_congr fun r _ => Bool.and_self _] at hsub
  exact (hsub.eq_of_length ((byEvent_perm log).filter _).length_eq.symm).symm

/-- A list that is sorted by event is determined by the reactions to each event. -/
theorem eq_of_filter_eq : ∀ {as bs : List Reaction},
    (as.Pairwise fun a b => ¬b.event < a.event) → (bs.Pairwise fun a b => ¬b.event < a.event) →
    (∀ e, as.filter (·.event == e) = bs.filter (·.event == e)) → as = bs
  | [], [], _, _, _ => rfl
  | [], b :: bs, _, _, h => by have hb := h b.event; simp at hb
  | a :: as, [], _, _, h => by have ha := h a.event; simp at ha
  | a :: as, b :: bs, ha, hb, h => by
    -- the first reactions are to the least event of both lists
    have hle {a b : Reaction} {as bs : List Reaction}
        (hb : (b :: bs).Pairwise fun a b => ¬b.event < a.event)
        (h : (a :: as).filter (·.event == a.event) = (b :: bs).filter (·.event == a.event)) :
        ¬a.event < b.event := by
      have hmem : a ∈ (b :: bs).filter (·.event == a.event) :=
        h ▸ List.mem_filter.2 ⟨List.mem_cons_self, beq_self_eq_true _⟩
      rcases List.mem_cons.1 (List.mem_filter.1 hmem).1 with rfl | hmem
      · exact String.lt_irrefl _
      · exact (List.pairwise_cons.1 hb).1 a hmem
    have hevent : a.event = b.event := by
      by_contra hne
      exact hle hb (h a.event) (Fields.lt_of_not_lt_of_ne (hle ha (h b.event).symm) (Ne.symm hne))
    have hfirst := h a.event
    rw [List.filter_cons_of_pos (by simp), List.filter_cons_of_pos (by simp [hevent])] at hfirst
    obtain ⟨rfl, -⟩ := List.cons_eq_cons.1 hfirst
    refine congrArg _ (eq_of_filter_eq ha.of_cons hb.of_cons fun e => ?_)
    have he := h e
    rw [List.filter_cons, List.filter_cons] at he
    split at he
    · exact (List.cons_eq_cons.1 he).2
    · exact he

end Ledger

namespace Store

variable {log : Ledger} {s : Store}

theorem pairwise_all (hs : s.Valid) : s.all.Pairwise fun a b => ¬b.event < a.event := by
  refine List.pairwise_flatMap.2 ⟨fun f hf => ?_, ?_⟩
  · refine List.pairwise_of_forall_mem_list fun a ha b hb => ?_
    rw [(event_of_mem hs hf).2 a ha, (event_of_mem hs hf).2 b hb]
    exact String.lt_irrefl _
  · refine hs.sorted.imp_of_mem fun ha hb hlt r hr r' hr' => ?_
    rw [(event_of_mem hs ha).2 r hr, (event_of_mem hs hb).2 r' hr']
    exact String.lt_asymm hlt

/-- **The store lists its reactions by event**, those to one event as they came. -/
theorem History.all_eq (h : History log s) : s.all = log.byEvent :=
  Ledger.eq_of_filter_eq (pairwise_all h.valid) log.pairwise_byEvent fun e => by
    rw [filter_all h.valid, h.matchesFor, Ledger.filter_byEvent]

theorem size_eq (s : Store) : s.size = s.all.length := by
  have hfold : ∀ (fs : Fields (List Reaction)) (n : Nat),
      fs.foldl (fun n e => n + e.2.length) n = n + (fs.flatMap (·.2)).length := by
    intro fs
    induction fs with
    | nil => exact fun n => rfl
    | cons f fs ih =>
      intro n
      rw [List.foldl_cons, ih, List.flatMap_cons, List.length_append, Nat.add_assoc]
  rw [size, hfold, Nat.zero_add]
  rfl

theorem History.size_eq (h : History log s) : s.size = log.length := by
  rw [Store.size_eq, h.all_eq, (Ledger.byEvent_perm log).length_eq]

theorem History.nodup (h : History log s) : (log.map Reaction.key).Nodup := by
  have hnodup := nodup_all h.valid
  rw [h.all_eq] at hnodup
  exact ((Ledger.byEvent_perm log).map _).nodup_iff.1 hnodup

/-! ## One call -/

theorem History.find?_eq (h : History log s) (e n : String) : s.find? e n = log.under e n := by
  rw [find?, h.matchesFor, List.find?_filter, Ledger.under]
  simp only [Bool.decide_and, Bool.decide_eq_true]

theorem get_of_find?_eq_none (hs : s.Valid) {e n : String} (h : s.find? e n = none) :
    s.get e n = .error (if s.matchesFor e = [] then .noReactionsForEvent e
      else .reactionNotFound e n) := by
  unfold get
  cases hget : Fields.get? e s.byEvent with
  | none =>
    have hnone : s.matchesFor e = [] := by rw [matchesFor, hget]; rfl
    rw [if_pos hnone]
  | some rs =>
    have hrs : s.matchesFor e = rs := by rw [matchesFor, hget]; rfl
    rw [find?, hrs] at h
    rw [hrs, if_neg (hs.nonempty _ (Fields.mem_of_get? hget))]
    simp only [h]

theorem History.get_eq (h : History log s) (e n : String) : s.get e n =
    match log.under e n with
    | some r => .ok r
    | none => .error (log.absence e n) := by
  cases hr : log.under e n with
  | some r => exact get_eq_ok.2 ((h.find?_eq e n).trans hr)
  | none =>
    have hany : s.matchesFor e = [] ↔ log.any (·.event == e) = false := by
      rw [h.matchesFor, List.filter_eq_nil_iff, List.any_eq_false]
    rw [get_of_find?_eq_none h.valid ((h.find?_eq e n).trans hr), Ledger.absence]
    cases hevent : log.any (·.event == e) with
    | true => rw [if_neg (by rw [hany, hevent]; exact nofun), if_pos rfl]
    | false => rw [if_pos (hany.2 hevent), if_neg Bool.false_ne_true]

/-- **A reaction is added** to the store if it is added to the ledger. -/
theorem History.add_eq (h : History log s) (r : Reaction) :
    (∃ e, s.add r = .error e ∧ log.add r = .error e) ∨
      ∃ t, s.add r = .ok t ∧ log.add r = .ok (log ++ [r]) ∧ History (log ++ [r]) t := by
  have hunder := h.find?_eq r.event r.name
  unfold Ledger.add
  cases hr : log.under r.event r.name with
  | some r' => exact Or.inl ⟨_, add_of_find? (hunder.trans hr), rfl⟩
  | none =>
    have hadd := add_eq_ok.2 ⟨hunder.trans hr, rfl⟩
    exact Or.inr ⟨_, hadd, rfl, h.add hadd⟩

theorem foldl_enter_refused (es : List StoreError) : ∀ (rs : List Reaction) (log : Ledger)
    (es' : List StoreError), rs.foldl Ledger.enter (es ++ es', log) =
      (es ++ (rs.foldl Ledger.enter (es', log)).1, (rs.foldl Ledger.enter (es', log)).2)
  | [], _, _ => rfl
  | r :: rs, log, es' => by
    have henter : Ledger.enter (es ++ es', log) r =
        (es ++ (Ledger.enter (es', log) r).1, (Ledger.enter (es', log) r).2) := by
      unfold Ledger.enter
      dsimp only
      split
      · rfl
      · rw [List.append_assoc]
    rw [List.foldl_cons, henter, foldl_enter_refused es rs]
    rfl

/-- **Reactions are added one by one**, and the same ones are refused. -/
theorem History.seed_eq : ∀ (rs : List Reaction) {log : Ledger} {s : Store}, History log s →
    (s.seed rs).1 = (log.addAll rs).1 ∧ History (log.addAll rs).2 (s.seed rs).2
  | [], _, _, h => ⟨rfl, h⟩
  | r :: rs, log, s, h => by
    rcases h.add_eq r with ⟨e, hs, hlog⟩ | ⟨t, hs, hlog, ht⟩
    · have henter : Ledger.enter ([], log) r = ([e] ++ [], log) := by rw [Ledger.enter, hlog]; rfl
      obtain ⟨hrefused, hhistory⟩ := History.seed_eq rs h
      rw [seed, hs, Ledger.addAll, List.foldl_cons, henter, foldl_enter_refused]
      exact ⟨congrArg (e :: ·) hrefused, hhistory⟩
    · have henter : Ledger.enter ([], log) r = ([], log ++ [r]) := by rw [Ledger.enter, hlog]
      rw [seed, hs, Ledger.addAll, List.foldl_cons, henter]
      exact History.seed_eq rs ht

/-- **A store and its ledger give the same reply**, and stay together. -/
theorem History.answer_eq (h : History log s) (c : Call) :
    (s.answer c).1 = (log.answer c).1 ∧ History (log.answer c).2 (s.answer c).2 := by
  cases c with
  | add r =>
    rw [answer, Ledger.answer]
    rcases h.add_eq r with ⟨e, hs, hlog⟩ | ⟨t, hs, hlog, ht⟩
    · rw [hs, hlog]
      exact ⟨rfl, h⟩
    · rw [hs, hlog]
      exact ⟨rfl, ht⟩
  | remove e n =>
    have hget := h.get_eq e n
    rw [answer, Ledger.answer]
    cases hr : log.under e n with
    | some r =>
      have hremove := remove_eq_ok.2 ⟨(h.find?_eq e n).trans hr, rfl⟩
      rw [hremove]
      exact ⟨rfl, h.remove hremove⟩
    | none =>
      rw [hr] at hget
      have hremove : s.remove e n = .error (log.absence e n) := by rw [Store.remove, hget]; rfl
      rw [hremove]
      exact ⟨rfl, h⟩
  | get e n =>
    rw [answer, Ledger.answer, h.get_eq e n]
    cases log.under e n with
    | some r => exact ⟨rfl, h⟩
    | none => exact ⟨rfl, h⟩
  | matchesFor e => exact ⟨congrArg Reply.reactions (h.matchesFor e), h⟩
  | all => exact ⟨congrArg Reply.reactions h.all_eq, h⟩
  | size => exact ⟨congrArg Reply.count h.size_eq, h⟩
  | seed rs => exact ⟨congrArg Reply.refusals (h.seed_eq rs).1, (h.seed_eq rs).2⟩

/-! ## Any calls -/

theorem History.answers_eq : ∀ (cs : List Call) {log : Ledger} {s : Store}, History log s →
    (s.answers cs).1 = (log.answers cs).1 ∧ History (log.answers cs).2 (s.answers cs).2
  | [], _, _, h => ⟨rfl, h⟩
  | c :: cs, log, s, h => by
    obtain ⟨hreply, hnext⟩ := h.answer_eq c
    obtain ⟨hreplies, hlast⟩ := History.answers_eq cs hnext
    rw [answers, Ledger.answers, hreply, hreplies]
    exact ⟨rfl, hlast⟩

/-- What is refused leaves the store as it is. -/
theorem answer_refused {c : Call} {e : StoreError} (h : (s.answer c).1 = .refused e) :
    (s.answer c).2 = s := by
  cases c with
  | add r =>
    rw [answer] at h ⊢
    cases hadd : s.add r with
    | ok t => rw [hadd] at h; cases h
    | error => rfl
  | remove event name =>
    rw [answer] at h ⊢
    cases hremove : s.remove event name with
    | ok => rw [hremove] at h; cases h
    | error => rfl
  | get event name =>
    rw [answer]
    cases s.get event name <;> rfl
  | matchesFor | all | size => rfl
  | seed => cases h

/-- Of the reactions that are added one by one, some are refused, and the others
    are what the ledger grows by. -/
theorem exists_length_addAll : ∀ (rs : List Reaction) (out : List StoreError × Ledger), ∃ n ≤ rs.length,
    (rs.foldl Ledger.enter out).1.length = out.1.length + n ∧
      (rs.foldl Ledger.enter out).2.length + n = out.2.length + rs.length
  | [], _ => ⟨0, Nat.le_refl 0, rfl, rfl⟩
  | r :: rs, out => by
    obtain ⟨n, hn, hrefused, hadded⟩ := exists_length_addAll rs (Ledger.enter out r)
    rw [List.foldl_cons, hrefused, List.length_cons]
    unfold Ledger.enter Ledger.add at *
    cases hr : Ledger.under out.2 r.event r.name with
    | none =>
      simp only [hr, List.length_append, List.length_singleton] at hadded ⊢
      exact ⟨n, by omega, rfl, by omega⟩
    | some r' =>
      simp only [hr, List.length_append, List.length_singleton] at hadded ⊢
      exact ⟨n + 1, by omega, by omega, by omega⟩

/-- **An engine counts the reactions by which its ledger grows.** -/
theorem History.seed_count (h : History log s) (engine : Engine) (rs : List Reaction) :
    let seeded := { engine with store := s }.seed rs
    let log' := (log.addAll (rs.map Reaction.normalize)).2
    seeded.1 + log.length = log'.length ∧ History log' seeded.2.store := by
  intro seeded log'
  obtain ⟨hrefused, hhistory⟩ := h.seed_eq (rs.map Reaction.normalize)
  obtain ⟨n, hn, hcount, hadded⟩ := exists_length_addAll (rs.map Reaction.normalize) ([], log)
  rw [List.length_map] at hn hadded
  rw [List.length_nil, Nat.zero_add] at hcount
  dsimp only at hadded
  have hseeded : seeded.1 = rs.length - n := by
    show rs.length - (s.seed (rs.map Reaction.normalize)).1.length = _
    rw [hrefused, Ledger.addAll, hcount]
  refine ⟨?_, hhistory⟩
  show seeded.1 + log.length = ((rs.map Reaction.normalize).foldl Ledger.enter ([], log)).2.length
  omega

/-- **The store behaves as one list** of its reactions in the order in which they
    came: to any calls it gives what the list gives.  Each reaction is filed under
    its own event, no two have a key in common, what is refused changes nothing, and
    an engine that is seeded counts the reactions by which the list grows. -/
theorem behaves_as_ledger (cs : List Call) :
    let s := (empty.answers cs).2
    let log := (Ledger.answers [] cs).2
    (empty.answers cs).1 = (Ledger.answers [] cs).1 ∧
      (log.map Reaction.key).Nodup ∧ (s.all.map Reaction.key).Nodup ∧
      (∀ f ∈ s.byEvent, f.2 ≠ [] ∧ ∀ r ∈ f.2, r.event = f.1) ∧
      (∀ c e, (s.answer c).1 = .refused e → (s.answer c).2 = s) ∧
      ∀ (engine : Engine) (rs : List Reaction),
        let seeded := { engine with store := s }.seed rs
        let log' := (log.addAll (rs.map Reaction.normalize)).2
        seeded.1 + log.length = log'.length ∧ History log' seeded.2.store := by
  intro s log
  obtain ⟨hreplies, hhistory⟩ := History.answers_eq cs .empty
  have hs := hhistory.valid
  refine ⟨hreplies, hhistory.nodup, nodup_all hs, fun f hf => ?_, fun c e => answer_refused,
    hhistory.seed_count⟩
  exact ⟨hs.nonempty f hf, (event_of_mem hs hf).2⟩

/-- Two bells on one door, one of them twice, and another on a gate. -/
theorem behaves_as_ledger_bells :
    let bell := Reaction.bare "bell" "door" ""
    let chime := Reaction.bare "chime" "door" ""
    let gate := Reaction.bare "bell" "gate" ""
    let cs : List Call := [.add gate, .add chime, .add bell, .add bell, .all, .remove "gate" "bell",
      .get "gate" "bell", .get "door" "horn", .seed [gate, chime], .size]
    (empty.answers cs).1 = [.reaction gate, .reaction chime, .reaction bell,
        .refused (.duplicate "door" "bell"), .reactions [chime, bell, gate], .reaction gate,
        .refused (.noReactionsForEvent "gate"), .refused (.reactionNotFound "door" "horn"),
        .refusals [.duplicate "door" "chime"], .count 3] ∧
      (empty.answers cs).1 = (Ledger.answers [] cs).1 := by
  intro bell chime gate cs
  exact ⟨by decide +kernel, (behaves_as_ledger cs).1⟩

end Store

end Reactor
