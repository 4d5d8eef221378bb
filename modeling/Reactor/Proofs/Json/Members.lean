/-
  Records, read field by field.

  * `Pending` is what has to hold of the members that are still to be read, and each of
    them keeps it; `reads_record`: a value is read from each text that lays it out;
  * `Kept` and `Listed` are what the members, or the items, of a record that was read
    show; `exact_record`: nothing is left of them; `refuses_record`: nothing is read from
    a faulty text.
-/
import Reactor.Proofs.Json.Layouts
import Reactor.Proofs.Json.Readers

namespace Reactor.Json

open Reader
open Phrase (Ends ends_items ends_members quote comma itemLexemes memberLexemes)

namespace Decoder

variable {α : Type} {L : Layout α} {a : α} {s : Slot α} {t : Phrase} {k : List Char} {n : String}
  {m : List Char × Phrase} {ms : List (List Char × Phrase)} {rest ls : List (List Char)}
  {cs r : List Char} {fields : List Field} {f : Field} {found : Fields Json} {fuel depth : Nat}
  {first : Bool} {j : Json} {title : String}

/-! ## One member -/

theorem recordFields_end (h : Spaced (['\x7d'] :: rest) cs) (fuel : Nat) :
    ∃ r, Spaced rest r ∧ recordFields fields depth (fuel + 1) first found cs =
      (complete found fields >>= fun all => .ok (.obj all, r)) := by
  obtain ⟨r, hr, hrest⟩ := closeObject_end h
  refine ⟨r, hrest, ?_⟩
  rw [recordFields, nextField_end h]
  simp only [Except.ok_bind, hr]

theorem recordFields_known (hk : Denotes k n.toList)
    (hf : fields.find? (·.isNamed n) = some f) (hnew : Fields.get? f.name found = none)
    (h : Spaced (comma first ++ (quote k :: [':'] :: ls)) cs) (fuel : Nat) :
    ∃ r, Spaced ls r ∧ recordFields fields depth (fuel + 1) first found cs =
      (f.read depth r >>= fun x =>
        recordFields fields depth fuel false (Fields.insert f.name x.1 found) x.2) := by
  obtain ⟨r, r', hname, hcolon, hls⟩ := nextField_member hk h
  refine ⟨r', hls, ?_⟩
  rw [recordFields, hname]
  simp only [Except.ok_bind, hf, hnew, hcolon, Option.isSome_none, Bool.false_eq_true, if_false]

theorem recordFields_again (hk : Denotes k n.toList)
    (hf : fields.find? (·.isNamed n) = some f) (hfound : (Fields.get? f.name found).isSome)
    (h : Spaced (comma first ++ (quote k :: [':'] :: ls)) cs) (fuel : Nat) :
    ∃ e, recordFields fields depth (fuel + 1) first found cs = .error e := by
  obtain ⟨r, r', hname, hcolon, hls⟩ := nextField_member hk h
  refine ⟨.shape ("duplicate field `" ++ f.name ++ "`"), ?_⟩
  rw [recordFields, hname]
  simp only [Except.ok_bind, hf, hfound, if_true]

theorem recordFields_unknown (hk : Denotes k n.toList)
    (hf : fields.find? (·.isNamed n) = none) (ht : t.WellFormed) (hrest : Ends ls)
    (h : Spaced (comma first ++ (quote k :: [':'] :: (t.lexemes ++ ls))) cs) (fuel : Nat) :
    ∃ r, Spaced ls r ∧ recordFields fields depth (fuel + 1) first found cs =
      recordFields fields depth fuel false found r := by
  obtain ⟨r₁, r₂, hname, hcolon, hvalue⟩ := nextField_member hk h
  obtain ⟨r₃, hskip, hls⟩ := ht.skip hrest hvalue
  refine ⟨r₃, hls, ?_⟩
  rw [recordFields, hname]
  simp only [Except.ok_bind, hf, hcolon, hskip]

/-! ## A value is read -/

/-- Members that are still to be read, when some fields have been found. -/
structure Pending (L : Layout α) (a : α) (found : Fields Json)
    (ms : List (List Char × Phrase)) : Prop where
  named : ∀ m ∈ ms, ∃ n : String, Denotes m.1 n.toList
  wellFormed : ∀ m ∈ ms, m.2.WellFormed
  spelled : ∀ m ∈ ms, ∀ s ∈ L.slots, s.Names m.1 → s.Spells a m.2
  once : ∀ s ∈ L.slots, ∀ m m', [m, m'].Sublist ms → s.Names m.1 → ¬ s.Names m'.1
  new : ∀ s ∈ L.slots, ∀ m ∈ ms, s.Names m.1 → Fields.get? s.name found = none
  given : ∀ s ∈ L.slots, (∃ m ∈ ms, s.Names m.1) ∨ Fields.get? s.name found = some (s.json a) ∨
    Fields.get? s.name found = none ∧ s.default? = some (s.json a)

/-- A field is found. -/
theorem Pending.known (hd : L.Distinct) (h : Pending L a found (m :: ms)) (hs : s ∈ L.slots)
    (hm : s.Names m.1) : Pending L a (Fields.insert s.name (s.json a) found) ms where
  named m' hm' := h.named m' (List.mem_cons_of_mem _ hm')
  wellFormed m' hm' := h.wellFormed m' (List.mem_cons_of_mem _ hm')
  spelled m' hm' := h.spelled m' (List.mem_cons_of_mem _ hm')
  once s' hs' m₁ m₂ hsub := h.once s' hs' m₁ m₂ (hsub.cons m)
  new s' hs' m' hm' hnames := by
    rw [Fields.get?_insert]
    split
    · -- a later member of the same field would give it twice
      rename_i hname
      cases hd.unique_name hs' hs hname
      exact absurd hnames
        (h.once s hs m m' (List.cons_sublist_cons.2 (List.singleton_sublist.2 hm')) hm)
    · exact h.new s' hs' m' (List.mem_cons_of_mem _ hm') hnames
  given s' hs' := by
    rw [Fields.get?_insert]
    split
    · rename_i hname
      cases hd.unique_name hs' hs hname
      exact .inr (.inl rfl)
    · rename_i hname
      rcases h.given s' hs' with ⟨m', hm', hnames⟩ | hfound
      · rcases List.mem_cons.1 hm' with rfl | hm'
        · exact absurd (congrArg (·.name) (hd.unique_names hs' hs hnames hm)) hname
        · exact .inl ⟨m', hm', hnames⟩
      · exact .inr hfound

/-- A member that is no field is passed over. -/
theorem Pending.unknown (h : Pending L a found (m :: ms)) (hm : ∀ s ∈ L.slots, ¬ s.Names m.1) :
    Pending L a found ms where
  named m' hm' := h.named m' (List.mem_cons_of_mem _ hm')
  wellFormed m' hm' := h.wellFormed m' (List.mem_cons_of_mem _ hm')
  spelled m' hm' := h.spelled m' (List.mem_cons_of_mem _ hm')
  once s' hs' m₁ m₂ hsub := h.once s' hs' m₁ m₂ (hsub.cons m)
  new s' hs' m' hm' := h.new s' hs' m' (List.mem_cons_of_mem _ hm')
  given s' hs' := by
    rcases h.given s' hs' with ⟨m', hm', hnames⟩ | hfound
    · rcases List.mem_cons.1 hm' with rfl | hm'
      · exact absurd hnames (hm s' hs')
      · exact .inl ⟨m', hm', hnames⟩
    · exact .inr hfound

theorem complete_slots : ∀ {slots : List (Slot α)},
    (∀ s ∈ slots, Fields.get? s.name found = some (s.json a) ∨
      Fields.get? s.name found = none ∧ s.default? = some (s.json a)) →
    complete found (slots.map (·.toField)) = .ok (slots.map fun s => (s.name, s.json a))
  | [], _ => rfl
  | s :: slots, h => by
    have hrest := complete_slots fun s' hs' => h s' (List.mem_cons_of_mem _ hs')
    rw [List.map_cons, complete]
    rcases h s List.mem_cons_self with hfound | ⟨hnone, hdefault⟩
    · simp only [hfound, hrest, Except.ok_bind]
      rfl
    · simp only [hnone, hdefault, hrest, Except.ok_bind]
      rfl

/-- **All fields are found** in the members that are still to be read. -/
theorem recordFields_of_pending (hd : L.Distinct)
    (hreads : ∀ s ∈ L.slots, ∀ t, s.Spells a t → Reads s.read depth t (s.json a)) :
    ∀ {ms : List (List Char × Phrase)} {fuel : Nat} {first : Bool} {found : Fields Json}
      {cs : List Char}, ms.length < fuel → Pending L a found ms →
      Spaced (memberLexemes first ms ++ ['\x7d'] :: rest) cs →
      ∃ r, recordFields (L.slots.map (·.toField)) depth fuel first found cs =
        .ok (L.toJson a, r) ∧ Spaced rest r
  | [], fuel, first, found, cs, hfuel, hpending, h => by
    obtain ⟨fuel, rfl⟩ := Nat.exists_eq_add_one_of_ne_zero (Nat.ne_zero_of_lt hfuel)
    have hall := complete_slots fun s hs => (hpending.given s hs).resolve_left nofun
    obtain ⟨r, hrest, hr⟩ := recordFields_end h fuel
    exact ⟨r, by rw [hr, hall]; rfl, hrest⟩
  | (k, t) :: ms, fuel, first, found, cs, hfuel, hpending, h => by
    obtain ⟨fuel, rfl⟩ := Nat.exists_eq_add_one_of_ne_zero (Nat.ne_zero_of_lt hfuel)
    have hless := Nat.lt_of_succ_lt_succ hfuel
    rw [memberLexemes, List.append_assoc, List.cons_append, List.cons_append, List.append_assoc] at h
    obtain ⟨n, hn⟩ := hpending.named _ List.mem_cons_self
    rcases L.find?_slots hn with ⟨s, hs, hnames, hfind⟩ | ⟨hunknown, hfind⟩
    · have hnew := hpending.new s hs _ List.mem_cons_self hnames
      have hspells := hpending.spelled _ List.mem_cons_self s hs hnames
      obtain ⟨r₁, hvalue, hr₁⟩ := recordFields_known hn hfind hnew h fuel
      obtain ⟨r₂, hr₂, hmore⟩ := hreads s hs t hspells (ends_members ms _) hvalue
      obtain ⟨r₃, hr₃, hend⟩ :=
        recordFields_of_pending hd hreads hless (hpending.known hd hs hnames) hmore
      refine ⟨r₃, ?_, hend⟩
      rw [hr₁, hr₂]
      exact hr₃
    · have ht := hpending.wellFormed _ List.mem_cons_self
      obtain ⟨r₁, hmore, hr₁⟩ := recordFields_unknown hn hfind ht (ends_members ms _) h fuel
      obtain ⟨r₂, hr₂, hend⟩ := recordFields_of_pending hd hreads hless (hpending.unknown hunknown) hmore
      exact ⟨r₂, hr₁.trans hr₂, hend⟩

theorem record_object {x : List Char} (h : skipBlanks cs = '\x7b' :: x) :
    record title fields (depth + 1) cs = recordFields fields depth (x.length + 1) true [] x := by
  unfold record
  rw [h]
  rfl

/-- **A record is read from each of its texts.** -/
theorem reads_record (hd : L.Distinct)
    (hreads : ∀ s ∈ L.slots, ∀ t, s.Spells a t → Reads s.read depth t (s.json a))
    (ht : L.Lays a t) : Reads L.form (depth + 1) t (L.toJson a) := by
  intro rest cs hrest h
  cases ht with
  | intro named wellFormed spelled once given =>
    rw [Phrase.lexemes, List.cons_append, List.append_assoc] at h
    obtain ⟨x, hx, hls⟩ := h.lexeme
    have hpending : Pending L a [] _ := ⟨named, wellFormed, spelled, once, fun _ _ _ _ _ => rfl,
      fun s hs => (given s hs).imp id fun hdefault => .inr ⟨rfl, hdefault⟩⟩
    obtain ⟨r, hr, hend⟩ :=
      recordFields_of_pending hd hreads (length_lt_of_members hls) hpending hls
    exact ⟨r, (record_object hx).trans hr, hend⟩

/-! ## What a record that was read shows -/

/-- What members that were read show, when some fields had been found. -/
structure Kept (L : Layout α) (found : Fields Json) (ms : List (List Char × Phrase)) : Prop where
  once : ∀ s ∈ L.slots, ∀ m m', [m, m'].Sublist ms → s.Names m.1 → ¬ s.Names m'.1
  new : ∀ s ∈ L.slots, ∀ m ∈ ms, s.Names m.1 → Fields.get? s.name found = none
  read : ∀ s ∈ L.slots, ∀ m ∈ ms, s.Names m.1 → ¬ Refuses s.read m.2
  given : ∀ s ∈ L.slots, s.default? = none →
    (∃ m ∈ ms, s.Names m.1) ∨ (Fields.get? s.name found).isSome

theorem complete_given : ∀ {fields : List Field} {all : List (String × Json)},
    complete found fields = .ok all →
    ∀ f ∈ fields, f.default? = none → (Fields.get? f.name found).isSome
  | [], _, _ => List.forall_mem_nil _
  | f :: fields, all, h => by
    rw [complete] at h
    split at h
    · rename_i j hj
      obtain ⟨all, hall, -⟩ := Except.bind_eq_ok.1 h
      exact List.forall_mem_cons.2 ⟨fun _ => by rw [hj]; rfl, complete_given hall⟩
    · rename_i j _ hdefault
      obtain ⟨all, hall, -⟩ := Except.bind_eq_ok.1 h
      refine List.forall_mem_cons.2 ⟨fun hnone => ?_, complete_given hall⟩
      rw [hdefault] at hnone
      cases hnone
    · cases h

theorem Kept.end {all : List (String × Json)}
    (h : complete found (L.slots.map (·.toField)) = .ok all) : Kept L found [] where
  once _ _ _ _ hsub := by cases hsub
  new _ _ _ hm := by cases hm
  read _ _ _ hm := by cases hm
  given _ hs hnone := .inr (complete_given h _ (List.mem_map_of_mem hs) hnone)

/-- A field was found. -/
theorem Kept.known (hd : L.Distinct) (hs : s ∈ L.slots) (hm : s.Names m.1)
    (hnew : Fields.get? s.name found = none) (hread : ¬ Refuses s.read m.2)
    (h : Kept L (Fields.insert s.name j found) ms) : Kept L found (m :: ms) where
  once s' hs' m₁ m₂ hsub hm₁ hm₂ := by
    cases hsub with
    | cons _ hsub => exact h.once s' hs' m₁ m₂ hsub hm₁ hm₂
    | cons_cons _ hsub =>
      -- the field had been found before its second member, which was refused then
      have heq := hd.unique_names hs' hs hm₁ hm
      have hfound := h.new s hs m₂ (List.singleton_sublist.1 hsub) (heq ▸ hm₂)
      rw [Fields.get?_insert, if_pos rfl] at hfound
      cases hfound
  new s' hs' m' hm' hnames := by
    rcases List.mem_cons.1 hm' with rfl | hm'
    · rwa [hd.unique_names hs' hs hnames hm]
    · have hfound := h.new s' hs' m' hm' hnames
      rw [Fields.get?_insert] at hfound
      split at hfound
      · cases hfound
      · exact hfound
  read s' hs' m' hm' hnames := by
    rcases List.mem_cons.1 hm' with rfl | hm'
    · rwa [hd.unique_names hs' hs hnames hm]
    · exact h.read s' hs' m' hm' hnames
  given s' hs' hnone := by
    rcases h.given s' hs' hnone with ⟨m', hm', hnames⟩ | hfound
    · exact .inl ⟨m', List.mem_cons_of_mem _ hm', hnames⟩
    · rw [Fields.get?_insert] at hfound
      split at hfound
      · rename_i hname
        exact .inl ⟨m, List.mem_cons_self, hd.unique_name hs' hs hname ▸ hm⟩
      · exact .inr hfound

/-- A member that is no field was passed over. -/
theorem Kept.unknown (hm : ∀ s ∈ L.slots, ¬ s.Names m.1) (h : Kept L found ms) :
    Kept L found (m :: ms) where
  once s' hs' m₁ m₂ hsub hm₁ := by
    cases hsub with
    | cons _ hsub => exact h.once s' hs' m₁ m₂ hsub hm₁
    | cons_cons _ hsub => exact absurd hm₁ (hm s' hs')
  new s' hs' m' hm' hnames := by
    rcases List.mem_cons.1 hm' with rfl | hm'
    · exact absurd hnames (hm s' hs')
    · exact h.new s' hs' m' hm' hnames
  read s' hs' m' hm' hnames := by
    rcases List.mem_cons.1 hm' with rfl | hm'
    · exact absurd hnames (hm s' hs')
    · exact h.read s' hs' m' hm' hnames
  given s' hs' hnone :=
    (h.given s' hs' hnone).imp (fun ⟨m', hm', hnames⟩ => ⟨m', List.mem_cons_of_mem _ hm', hnames⟩) id

/-- Members that were read are all read, and nothing is left of them. -/
theorem recordFields_read (hd : L.Distinct) (hexact : ∀ s ∈ L.slots, Exact s.read) :
    ∀ {ms : List (List Char × Phrase)} {fuel : Nat} {first : Bool} {found : Fields Json}
      {cs r : List Char}, (∀ m ∈ ms, Inner m.1) → (∀ m ∈ ms, m.2.WellFormed) →
      Spaced (memberLexemes first ms ++ ['\x7d'] :: rest) cs →
      recordFields (L.slots.map (·.toField)) depth fuel first found cs = .ok (j, r) →
      Spaced rest r ∧ Kept L found ms
  | _, 0, _, _, _, _, _, _, _, hread => by cases hread
  | [], fuel + 1, first, found, cs, r, _, _, h, hread => by
    obtain ⟨r', hrest, hr'⟩ := recordFields_end h fuel
    rw [hr'] at hread
    obtain ⟨all, hall, heq⟩ := Except.bind_eq_ok.1 hread
    cases heq
    exact ⟨hrest, .end hall⟩
  | (k, t) :: ms, fuel + 1, first, found, cs, r, hnames, hwf, h, hread => by
    have hnames' := fun m hm => hnames m (List.mem_cons_of_mem _ hm)
    have hwf' := fun m hm => hwf m (List.mem_cons_of_mem _ hm)
    have ht := hwf _ List.mem_cons_self
    rw [memberLexemes, List.append_assoc, List.cons_append, List.cons_append, List.append_assoc] at h
    rcases denotes_or_error (hnames _ List.mem_cons_self) with ⟨n, hn⟩ | herror
    · rcases L.find?_slots hn with ⟨s, hs, hnamed, hfind⟩ | ⟨hunknown, hfind⟩
      · cases hfound : Fields.get? s.name found with
        | some j' =>
          obtain ⟨e, he⟩ := @recordFields_again _ _ _ _ _ _ found depth _ hn hfind
            (by rw [hfound]; rfl) h fuel
          rw [he] at hread
          cases hread
        | none =>
          obtain ⟨r₁, hvalue, hr₁⟩ := recordFields_known hn hfind hfound h fuel
          rw [hr₁] at hread
          obtain ⟨⟨v, r₂⟩, hv, hread⟩ := Except.bind_eq_ok.1 hread
          have hmore := hexact s hs ht (ends_members ms _) hvalue hv
          obtain ⟨hrest, hkept⟩ := recordFields_read hd hexact hnames' hwf' hmore hread
          refine ⟨hrest, hkept.known hd hs hnamed hfound fun hrefuses => ?_⟩
          exact hrefuses (ends_members ms _) hvalue _ hv
      · obtain ⟨r₁, hmore, hr₁⟩ := recordFields_unknown hn hfind ht (ends_members ms _) h fuel
        rw [hr₁] at hread
        obtain ⟨hrest, hkept⟩ := recordFields_read hd hexact hnames' hwf' hmore hread
        exact ⟨hrest, hkept.unknown hunknown⟩
    · obtain ⟨e, he⟩ := nextField_error herror h
      rw [recordFields, he] at hread
      cases hread

/-- What a list of values that were read shows. -/
structure Listed (fields : List Field) (ts : List Phrase) : Prop where
  read : ∀ f t, (f, t) ∈ fields.zip ts → ¬ Refuses f.read t
  given : ∀ f ∈ fields.drop ts.length, f.default? ≠ none

/-- Values in a list that were read are all read, and nothing is left of them. -/
theorem recordItems_read : ∀ {fields : List Field}, (∀ f ∈ fields, Exact f.read) →
    ∀ {ts : List Phrase} {n : Nat} {acc : List (String × Json)} {cs r : List Char},
      (∀ t ∈ ts, t.WellFormed) → Spaced (itemLexemes (n == 0) ts ++ [']'] :: rest) cs →
      recordItems title depth fields n acc cs = .ok (j, r) → Spaced rest r ∧ Listed fields ts
  | [], _, [], n, acc, cs, r, _, h, hread => by
    obtain ⟨r', hr', hrest⟩ := closeList_end h
    rw [recordItems, hr'] at hread
    cases hread
    exact ⟨hrest, ⟨fun _ _ hmem => (List.not_mem_nil hmem).elim, List.forall_mem_nil _⟩⟩
  | [], _, t :: ts, n, acc, cs, r, hwf, h, hread => by
    rw [itemLexemes, List.append_assoc, List.append_assoc] at h
    obtain ⟨e, he⟩ := closeList_item (hwf t List.mem_cons_self) h
    rw [recordItems, he] at hread
    cases hread
  | f :: fields, hexact, [], n, acc, cs, r, hwf, h, hread => by
    rw [recordItems, nextItem_end h] at hread
    simp only [Except.ok_bind] at hread
    have hend : Spaced (itemLexemes (n + 1 == 0) [] ++ [']'] :: rest) cs := h
    split at hread
    · rename_i hdefault
      obtain ⟨hrest, hlisted⟩ :=
        recordItems_read (fun f hf => hexact f (List.mem_cons_of_mem _ hf)) hwf hend hread
      refine ⟨hrest, ⟨fun _ _ hmem => (List.not_mem_nil hmem).elim,
        List.forall_mem_cons.2 ⟨?_, hlisted.given⟩⟩⟩
      rw [hdefault]
      exact Option.some_ne_none _
    · cases hread
    · rename_i heq
      cases heq
  | f :: fields, hexact, t :: ts, n, acc, cs, r, hwf, h, hread => by
    rw [itemLexemes, List.append_assoc, List.append_assoc] at h
    have ht := hwf t List.mem_cons_self
    obtain ⟨r₁, hr₁, hitem⟩ := nextItem_item ht h
    rw [recordItems, hr₁, Except.ok_bind] at hread
    obtain ⟨⟨v, r₂⟩, hv, hread⟩ := Except.bind_eq_ok.1 hread
    have hmore : Spaced (itemLexemes (n + 1 == 0) ts ++ [']'] :: rest) r₂ :=
      hexact f List.mem_cons_self ht (ends_items ts _) hitem hv
    obtain ⟨hrest, hlisted⟩ := recordItems_read (fun f hf => hexact f (List.mem_cons_of_mem _ hf))
      (fun t ht => hwf t (List.mem_cons_of_mem _ ht)) hmore hread
    refine ⟨hrest, ⟨fun f' t' hmem hrefuses => ?_, hlisted.given⟩⟩
    rcases List.mem_cons.1 hmem with heq | hmem
    · cases heq
      exact hrefuses (ends_items ts _) hitem _ hv
    · exact hlisted.read f' t' hmem hrefuses

theorem record_list {x : List Char} (h : skipBlanks cs = '[' :: x) :
    record title fields (depth + 1) cs = recordItems title depth fields 0 [] x := by
  unfold record
  rw [h]
  rfl

theorem record_zero {c : Char} {x : List Char} (h : skipBlanks cs = c :: x)
    (hc : c = '\x7b' ∨ c = '[') : record title fields 0 cs = .error .malformed := by
  unfold record
  rw [h]
  rcases hc with rfl | rfl <;> rfl

/-- What a record that was read from an object shows of its members. -/
theorem record_read (hd : L.Distinct) (hexact : ∀ s ∈ L.slots, Exact s.read)
    (hnames : ∀ m ∈ ms, Inner m.1) (hwf : ∀ m ∈ ms, m.2.WellFormed)
    (h : Spaced ((Phrase.object ms).lexemes ++ rest) cs) (hread : L.form depth cs = .ok (j, r)) :
    Spaced rest r ∧ Kept L [] ms := by
  rw [Phrase.lexemes, List.cons_append, List.append_assoc] at h
  obtain ⟨x, hx, hls⟩ := h.lexeme
  cases depth with
  | zero => cases (record_zero hx (.inl rfl)).symm.trans hread
  | succ depth =>
    exact recordFields_read hd hexact hnames hwf hls ((record_object hx).symm.trans hread)

/-- What a record that was read from a list shows of its items. -/
theorem record_read_list {ts : List Phrase} (hexact : ∀ s ∈ L.slots, Exact s.read)
    (hwf : ∀ t ∈ ts, t.WellFormed) (h : Spaced ((Phrase.list ts).lexemes ++ rest) cs)
    (hread : L.form depth cs = .ok (j, r)) :
    Spaced rest r ∧ Listed (L.slots.map (·.toField)) ts := by
  rw [Phrase.lexemes, List.cons_append, List.append_assoc] at h
  obtain ⟨x, hx, hls⟩ := h.lexeme
  have hls : Spaced (itemLexemes (0 == 0) ts ++ [']'] :: rest) x := hls
  cases depth with
  | zero => cases (record_zero hx (.inr rfl)).symm.trans hread
  | succ depth =>
    exact recordItems_read (List.forall_mem_map.2 hexact) hwf hls ((record_list hx).symm.trans hread)

/-- Only objects and lists are read as records. -/
theorem record_or_list (ht : t.WellFormed) (h : Spaced (t.lexemes ++ rest) cs)
    (hread : L.form depth cs = .ok (j, r)) : (∃ ms, t = .object ms) ∨ ∃ ts, t = .list ts := by
  unfold Layout.form record at hread
  split at hread
  · cases hread
  · cases hread
  · rename_i hbrace
    exact .inl (exists_object (begins_of_skipBlanks ht h hbrace))
  · rename_i hbracket
    exact .inr (exists_list (begins_of_skipBlanks ht h hbracket))
  · exact absurd hread refuse_ne_ok

theorem exact_record (hd : L.Distinct) (hexact : ∀ s ∈ L.slots, Exact s.read) : Exact L.form := by
  intro t depth rest cs r j ht hrest h hread
  rcases record_or_list ht h hread with ⟨ms, rfl⟩ | ⟨ts, rfl⟩
  · cases ht with
    | object hnames hwf => exact (record_read hd hexact hnames hwf h hread).1
  · cases ht with
    | list hwf => exact (record_read_list hexact hwf h hread).1

/-- **Nothing is read from a faulty text.** -/
theorem refuses_record (hd : L.Distinct) (hexact : ∀ s ∈ L.slots, Exact s.read)
    (hflawed : ∀ s ∈ L.slots, ∀ t, t.WellFormed → s.Flawed t → Refuses s.read t)
    (ht : t.WellFormed) (hfaulty : L.Faulty t) : Refuses L.form t := by
  intro depth rest cs hrest h x hread
  -- all that stands before the fault was read to its end, so that the fault was reached
  cases ht with
  | object hnames hwf =>
    have hkept := (record_read hd hexact hnames hwf h hread).2
    cases hfaulty with
    | twice hs hsub hm hm' => exact hkept.once _ hs _ _ hsub hm hm'
    | missing hs hnone hmissing =>
      rcases hkept.given _ hs hnone with ⟨m, hm, hnamed⟩ | hfound
      · exact hmissing m hm hnamed
      · cases hfound
    | inside hs hm hnamed hf =>
      exact hkept.read _ hs _ hm hnamed (hflawed _ hs _ (hwf _ hm) hf)
  | @list ts hwf =>
    have hlisted := (record_read_list hexact hwf h hread).2
    cases hfaulty with
    | @short _ s hs hnone =>
      have hmem : s.toField ∈ (L.slots.map (·.toField)).drop ts.length :=
        List.map_drop ▸ List.mem_map_of_mem hs
      exact hlisted.given _ hmem hnone
    | @listed _ t s hmem hf =>
      have hzip : (s.toField, t) ∈ (L.slots.map (·.toField)).zip ts := by
        rw [List.zip_map_left]
        exact List.mem_map_of_mem hmem
      have hs := (List.of_mem_zip hmem).1
      have ht := hwf t (List.of_mem_zip hmem).2
      exact hlisted.read _ t hzip (hflawed s hs t ht hf)
  | _ => cases hfaulty

end Decoder

end Reactor.Json
