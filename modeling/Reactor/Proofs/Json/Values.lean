/-
  Values of JSON, read from any text of theirs.

  * `Spells`: a text is one of a value without floats; the fields of its objects may
    stand in any order;
  * `Reads` says that a decoder reads a value from any such text, `Exact` that it
    leaves nothing of a text that it reads;
  * `reads_value`: a value is read from each of its texts; `exact_value`: nothing is left
    of a text of which a value was read.
-/
import Mathlib.Data.List.Forall2
import Reactor.Json.Decoder
import Reactor.Proofs.Json.Shape
import Reactor.Proofs.Json.Phrases

namespace Reactor.Json

open Reader
open Phrase (Ends ends_items ends_members quote comma itemLexemes memberLexemes ne_of_begins)

/-- A text of a value without floats; fields may stand in any order. -/
inductive Spells : Json → Phrase → Prop
  | null : Spells .null .null
  | bool (b : Bool) : Spells (.bool b) (.bool b)
  | int (i : Int) : Spells (.int i) (.number (intChars i))
  | str {s : String} {cs : List Char} : Denotes cs s.toList → Spells (.str s) (.string cs)
  | arr {js : List Json} {ts : List Phrase} : js.length = ts.length →
      (∀ {j t}, (j, t) ∈ js.zip ts → Spells j t) → Spells (.arr js) (.list ts)
  | obj {fields fs : Fields Json} {ms : List (List Char × Phrase)} : fs.Perm fields →
      fs.length = ms.length → (∀ {f m}, (f, m) ∈ fs.zip ms → Denotes m.1 f.1.toList) →
      (∀ {f m}, (f, m) ∈ fs.zip ms → Spells f.2 m.2) → Spells (.obj fields) (.object ms)

theorem forall_of_forall₂ {β γ : Type} {R : β → γ → Prop} {P : γ → Prop} {bs : List β} {gs : List γ}
    (h : List.Forall₂ R bs gs) (hP : ∀ {b g}, R b g → P g) : ∀ g ∈ gs, P g := by
  induction h with
  | nil => exact nofun
  | cons hg _ ih => exact List.forall_mem_cons.2 ⟨hP hg, ih⟩

theorem forall₂_of_mem {β γ : Type} {R S : β → γ → Prop} {bs : List β} {gs : List γ}
    (h : List.Forall₂ R bs gs) (hS : ∀ b ∈ bs, ∀ g, R b g → S b g) : List.Forall₂ S bs gs := by
  induction h with
  | nil => exact .nil
  | cons hg _ ih =>
    exact .cons (hS _ List.mem_cons_self _ hg) (ih fun b hb => hS b (List.mem_cons_of_mem _ hb))

theorem Spells.wellFormed {j : Json} {t : Phrase} (h : Spells j t) : t.WellFormed := by
  induction h with
  | null => exact .null
  | bool b => exact .bool b
  | int i => exact .number (isNumeral_intChars i)
  | str hs => exact .string hs.inner
  | arr hlength _ ih => exact .list (forall_of_forall₂ (List.forall₂_iff_zip.2 ⟨hlength, ih⟩) id)
  | obj _ hlength hnames _ ih =>
    have hvalues := List.forall₂_iff_zip.2 ⟨hlength, ih⟩
    exact .object (forall_of_forall₂ (List.forall₂_iff_zip.2 ⟨hlength, hnames⟩) Denotes.inner)
      (forall_of_forall₂ hvalues id)

namespace Decoder

variable {α : Type} {t : Phrase} {rest ls : List (List Char)} {cs r k : List Char} {fuel depth : Nat}
  {n : String} {j : Json}

/-- A decoder reads a text as a value, and leaves what follows it. -/
def Reads (d : Decoder α) (depth : Nat) (t : Phrase) (a : α) : Prop :=
  ∀ {rest : List (List Char)} {cs : List Char}, Ends rest → Spaced (t.lexemes ++ rest) cs →
    ∃ r, d depth cs = .ok (a, r) ∧ Spaced rest r

/-- A decoder that reads a text leaves what follows it, whatever it makes of it. -/
def Exact (d : Decoder α) : Prop :=
  ∀ {t : Phrase} {depth : Nat} {rest : List (List Char)} {cs r : List Char} {a : α}, t.WellFormed →
    Ends rest → Spaced (t.lexemes ++ rest) cs → d depth cs = .ok (a, r) → Spaced rest r

/-- The inner text of a string stands for some text, or no string is read. -/
theorem denotes_or_error (hk : Inner k) :
    (∃ n : String, Denotes k n.toList) ∨ ∀ r, ∃ e, string (k ++ '"' :: r) = .error e := by
  by_cases h : ∃ n : String, Denotes k n.toList
  · exact .inl h
  · refine .inr fun r => ?_
    cases hread : string (k ++ '"' :: r) with
    | error e => exact ⟨e, rfl⟩
    | ok x => exact absurd ⟨x.1, (string_inner hk hread).2⟩ h

/-- The lexeme of a string, read behind its blanks. -/
theorem quote_lexeme (h : Spaced (quote k :: ls) cs) :
    ∃ r, skipBlanks cs = '"' :: (k ++ '"' :: r) ∧ Spaced ls r := by
  obtain ⟨r, hr, hls⟩ := h.lexeme
  rw [List.append_assoc, List.singleton_append] at hr
  exact ⟨r, hr, hls⟩

theorem string_of_denotes (hk : Denotes k n.toList) (r : List Char) :
    string (k ++ '"' :: r) = .ok (n, r) := by
  rw [string_denotes hk, String.ofList_toList]

/-- The lexeme of a number, read behind its blanks. -/
theorem number_lexeme {l : List Char} (hl : IsNumeral l) (h : Spaced (l :: ls) cs) :
    ∃ c x r, skipBlanks cs = c :: x ∧ (c == '-' || c.isDigit) = true ∧ c :: x = l ++ r ∧
      Spaced ls r := by
  obtain ⟨c, l, rfl, hc⟩ := hl.exists_cons
  obtain ⟨r, hr, hls⟩ := h.lexeme
  exact ⟨c, l ++ r, r, hr, hc, rfl, hls⟩

/-! ## Values -/

attribute [local simp] valueFrom itemsFrom fieldsFrom

theorem valueFrom_number {c : Char} {x : List Char} (hc : (c == '-' || c.isDigit) = true)
    (h : skipBlanks cs = c :: x) (fuel depth : Nat) :
    valueFrom (fuel + 1) depth cs = number (c :: x) := by
  rw [valueFrom, h]
  split
  · rename_i heq
    cases heq
  all_goals
    rename_i heq
    first
    | exact absurd (List.cons.inj heq).1 (ne_of_begins hc rfl)
    | (cases heq; exact if_pos hc)

theorem valueFrom_string {x : List Char} (h : skipBlanks cs = '"' :: x) (fuel depth : Nat) :
    valueFrom (fuel + 1) depth cs = (string x).map fun y => (.str y.1, y.2) := by
  rw [valueFrom, h]
  rfl

theorem valueFrom_list_zero {x : List Char} (h : skipBlanks cs = '[' :: x) (fuel : Nat) :
    valueFrom (fuel + 1) 0 cs = .error .malformed := by
  simp [h]

/-- An empty list, or the items of one that is not. -/
theorem valueFrom_list {items : List Phrase} (hitems : ∀ t ∈ items, t.WellFormed)
    (h : Spaced (['['] :: (itemLexemes true items ++ [']'] :: rest)) cs) (fuel depth : Nat) :
    (items = [] ∧ ∃ r, valueFrom (fuel + 1) (depth + 1) cs = .ok (.arr [], r) ∧ Spaced rest r) ∨
      ∃ t ts r, items = t :: ts ∧ valueFrom (fuel + 1) (depth + 1) cs = itemsFrom fuel depth [] r ∧
        Spaced (t.lexemes ++ (itemLexemes false ts ++ [']'] :: rest)) r := by
  obtain ⟨r, hr, hls⟩ := h.lexeme
  rw [List.nil_append] at hr
  cases items with
  | nil =>
    obtain ⟨r', hr', hrest⟩ := hls.lexeme
    refine .inl ⟨rfl, r', ?_, hrest⟩
    rw [valueFrom, hr]
    simp only [hr', List.nil_append]
  | cons t ts =>
    rw [itemLexemes, List.append_assoc, List.append_assoc] at hls
    obtain ⟨c, l, ls, hfirst, hc, hmark⟩ := (hitems t List.mem_cons_self).exists_lexeme
    obtain ⟨x, hx, -⟩ := Spaced.lexeme (hfirst ▸ hls)
    refine .inr ⟨t, ts, _, rfl, ?_, hls.skipBlanks⟩
    rw [valueFrom, hr]
    simp only
    split
    · rename_i heq
      rw [hx] at heq
      exact absurd (List.cons.inj heq).1 fun hclose => hmark (by rw [hclose]; decide)
    · rfl

/-- The last item of a list. -/
theorem itemsFrom_last {v : Json} (hv : valueFrom fuel depth cs = .ok (v, r))
    (h : Spaced ([']'] :: rest) r) (acc : List Json) : ∃ r',
      itemsFrom (fuel + 1) depth acc cs = .ok (.arr (v :: acc).reverse, r') ∧ Spaced rest r' := by
  obtain ⟨r', hr', hrest⟩ := h.lexeme
  refine ⟨r', ?_, hrest⟩
  rw [itemsFrom, hv]
  simp only [hr', List.nil_append]

/-- An item that others follow. -/
theorem itemsFrom_more {v : Json} (hv : valueFrom fuel depth cs = .ok (v, r)) (ht : t.WellFormed)
    (h : Spaced ([','] :: (t.lexemes ++ ls)) r) (acc : List Json) : ∃ r',
      itemsFrom (fuel + 1) depth acc cs = itemsFrom fuel depth (v :: acc) r' ∧
        Spaced (t.lexemes ++ ls) r' := by
  obtain ⟨r₁, hr₁, hls⟩ := h.lexeme
  obtain ⟨c, l, ls', hfirst, -⟩ := ht.exists_lexeme
  obtain ⟨r₂, hr₂, -⟩ := Spaced.lexeme (hfirst ▸ hls)
  refine ⟨skipBlanks r₁, ?_, hls.skipBlanks⟩
  rw [itemsFrom, hv]
  simp only [hr₁, List.nil_append, hr₂]

theorem itemsFrom_error {e : ReadError} (hv : valueFrom fuel depth cs = .error e)
    (acc : List Json) : itemsFrom (fuel + 1) depth acc cs = .error e := by
  simp [hv]

theorem valueFrom_object_zero {x : List Char} (h : skipBlanks cs = '\x7b' :: x) (fuel : Nat) :
    valueFrom (fuel + 1) 0 cs = .error .malformed := by
  simp [h]

/-- An empty object, or the members of one that is not. -/
theorem valueFrom_object {members : List (List Char × Phrase)}
    (h : Spaced (['\x7b'] :: (memberLexemes true members ++ ['\x7d'] :: rest)) cs)
    (fuel depth : Nat) :
    (members = [] ∧ ∃ r, valueFrom (fuel + 1) (depth + 1) cs = .ok (.obj [], r) ∧
        Spaced rest r) ∨
      ∃ k t ms r, members = (k, t) :: ms ∧
        valueFrom (fuel + 1) (depth + 1) cs = fieldsFrom fuel depth [] r ∧
        Spaced (quote k :: [':'] :: (t.lexemes ++ (memberLexemes false ms ++ ['\x7d'] :: rest))) r := by
  obtain ⟨r, hr, hls⟩ := h.lexeme
  rw [List.nil_append] at hr
  cases members with
  | nil =>
    obtain ⟨r', hr', hrest⟩ := hls.lexeme
    refine .inl ⟨rfl, r', ?_, hrest⟩
    rw [valueFrom, hr]
    simp only [hr', List.nil_append]
  | cons m ms =>
    obtain ⟨k, t⟩ := m
    rw [memberLexemes, List.append_assoc, List.cons_append, List.cons_append,
      List.append_assoc] at hls
    obtain ⟨x, hx, -⟩ := Spaced.lexeme hls
    refine .inr ⟨k, t, ms, _, rfl, ?_, hls.skipBlanks⟩
    rw [valueFrom, hr]
    simp only
    split
    · rename_i heq
      rw [hx] at heq
      cases (List.cons.inj heq).1
    · rfl

/-- A member whose name stands for no text. -/
theorem fieldsFrom_error (hname : ∀ r, ∃ e, string (k ++ '"' :: r) = .error e)
    (h : Spaced (quote k :: ls) cs) (fuel depth : Nat) (acc : List (String × Json)) :
    ∃ e, fieldsFrom (fuel + 1) depth acc cs = .error e := by
  obtain ⟨r, hr, -⟩ := quote_lexeme h
  obtain ⟨e, he⟩ := hname r
  exact ⟨e, by simp [hr, he]⟩

/-- The value of a member, and what follows it. -/
theorem fieldsFrom_name (hk : Denotes k n.toList) (h : Spaced (quote k :: [':'] :: ls) cs) :
    ∃ r, Spaced ls r ∧ ∀ (fuel depth : Nat) (acc : List (String × Json)),
      (∀ {e}, valueFrom fuel depth r = .error e →
        fieldsFrom (fuel + 1) depth acc cs = .error e) ∧
      (∀ {v r' x}, valueFrom fuel depth r = .ok (v, r') → skipBlanks r' = '\x7d' :: x →
        fieldsFrom (fuel + 1) depth acc cs = .ok (.mkObj ((n, v) :: acc).reverse, x)) ∧
      ∀ {v r' x}, valueFrom fuel depth r = .ok (v, r') → skipBlanks r' = ',' :: x →
        fieldsFrom (fuel + 1) depth acc cs = fieldsFrom fuel depth ((n, v) :: acc) x := by
  obtain ⟨r₁, hr₁, hcolon⟩ := quote_lexeme h
  obtain ⟨r₂, hr₂, hls⟩ := hcolon.lexeme
  refine ⟨r₂, hls, fun fuel depth acc => ?_⟩
  rw [fieldsFrom, hr₁]
  simp only [string_of_denotes hk, hr₂, List.nil_append]
  refine ⟨fun hv => ?_, fun hv hx => ?_, fun hv hx => ?_⟩
  · rw [hv]
  · rw [hv]
    simp only [hx]
  · rw [hv]
    simp only [hx]

/-! ## Values that are spelled -/

/-- A value is read with enough fuel. -/
def Values (depth : Nat) (j : Json) (t : Phrase) : Prop :=
  ∀ {rest : List (List Char)} {cs : List Char} {fuel : Nat}, t.lexemes.length ≤ fuel → Ends rest →
    Spaced (t.lexemes ++ rest) cs → ∃ r, valueFrom fuel depth cs = .ok (j, r) ∧ Spaced rest r

theorem itemsFrom_values {j : Json} {t : Phrase} (hj : Values depth j t) {js : List Json}
    {ts : List Phrase} (hts : ∀ t ∈ ts, t.WellFormed) (hjs : List.Forall₂ (Values depth) js ts) :
    ∀ {cs : List Char} {acc : List Json} {fuel : Nat},
      t.lexemes.length + (itemLexemes false ts).length < fuel →
      Spaced (t.lexemes ++ (itemLexemes false ts ++ [']'] :: rest)) cs →
      ∃ r, itemsFrom fuel depth acc cs = .ok (.arr (acc.reverse ++ j :: js), r) ∧ Spaced rest r := by
  induction hjs generalizing j t with
  | nil =>
    intro cs acc fuel hfuel h
    obtain ⟨fuel, rfl⟩ := Nat.exists_eq_add_one_of_ne_zero (Nat.ne_zero_of_lt hfuel)
    obtain ⟨r, hr, hls⟩ := hj (Nat.le_of_lt_succ hfuel) (ends_items [] _) h
    obtain ⟨r', hr', hrest⟩ := itemsFrom_last hr hls acc
    exact ⟨r', by rw [hr', List.reverse_cons], hrest⟩
  | @cons j' t' js ts hj' _ ih =>
    intro cs acc fuel hfuel h
    obtain ⟨fuel, rfl⟩ := Nat.exists_eq_add_one_of_ne_zero (Nat.ne_zero_of_lt hfuel)
    have hsum : (itemLexemes false (t' :: ts)).length =
        1 + (t'.lexemes.length + (itemLexemes false ts).length) := by
      rw [itemLexemes, List.length_append, List.length_append]
      rfl
    obtain ⟨r, hr, hls⟩ := @hj _ _ fuel (by omega) (ends_items (t' :: ts) _) h
    rw [itemLexemes, List.append_assoc, List.append_assoc] at hls
    obtain ⟨r', hr', hmore⟩ := itemsFrom_more hr (hts t' List.mem_cons_self) hls acc
    obtain ⟨r'', hr'', hrest⟩ :=
      @ih _ _ hj' (fun t ht => hts t (List.mem_cons_of_mem _ ht)) _ (j :: acc) fuel (by omega) hmore
    refine ⟨r'', ?_, hrest⟩
    rw [hr', hr'', List.reverse_cons, List.append_assoc]
    rfl

/-- The last member of an object. -/
theorem fieldsFrom_last {v : Json} (hk : Denotes k n.toList)
    (hv : ∀ {cs}, Spaced (t.lexemes ++ ['\x7d'] :: rest) cs →
      ∃ r, valueFrom fuel depth cs = .ok (v, r) ∧ Spaced (['\x7d'] :: rest) r)
    (h : Spaced (quote k :: [':'] :: (t.lexemes ++ ['\x7d'] :: rest)) cs)
    (acc : List (String × Json)) : ∃ r, fieldsFrom (fuel + 1) depth acc cs =
      .ok (.mkObj ((n, v) :: acc).reverse, r) ∧ Spaced rest r := by
  obtain ⟨r₁, hls, hfields⟩ := fieldsFrom_name hk h
  obtain ⟨r₂, hr₂, hclose⟩ := hv hls
  obtain ⟨r₃, hr₃, hrest⟩ := hclose.lexeme
  exact ⟨r₃, (hfields fuel depth acc).2.1 hr₂ hr₃, hrest⟩

/-- A member that others follow. -/
theorem fieldsFrom_more {v : Json} (hk : Denotes k n.toList)
    (hv : ∀ {cs}, Spaced (t.lexemes ++ [','] :: ls) cs →
      ∃ r, valueFrom fuel depth cs = .ok (v, r) ∧ Spaced ([','] :: ls) r)
    (h : Spaced (quote k :: [':'] :: (t.lexemes ++ [','] :: ls)) cs)
    (acc : List (String × Json)) : ∃ r, fieldsFrom (fuel + 1) depth acc cs =
      fieldsFrom fuel depth ((n, v) :: acc) r ∧ Spaced ls r := by
  obtain ⟨r₁, hls, hfields⟩ := fieldsFrom_name hk h
  obtain ⟨r₂, hr₂, hcomma⟩ := hv hls
  obtain ⟨r₃, hr₃, hrest⟩ := hcomma.lexeme
  exact ⟨r₃, (hfields fuel depth acc).2.2 hr₂ hr₃, hrest⟩

theorem fieldsFrom_values {f : String × Json} {m : List Char × Phrase}
    (hname : Denotes m.1 f.1.toList) (hvalue : Values depth f.2 m.2) {fs : List (String × Json)}
    {ms : List (List Char × Phrase)} (hfs : List.Forall₂ (fun (f : String × Json) m =>
      Denotes m.1 f.1.toList ∧ Values depth f.2 m.2) fs ms) :
    ∀ {cs : List Char} {acc : List (String × Json)} {fuel : Nat},
      m.2.lexemes.length + (memberLexemes false ms).length < fuel →
      Spaced (quote m.1 :: [':'] :: (m.2.lexemes ++ (memberLexemes false ms ++ ['\x7d'] :: rest))) cs →
      ∃ r, fieldsFrom fuel depth acc cs = .ok (.mkObj (acc.reverse ++ f :: fs), r) ∧
        Spaced rest r := by
  induction hfs generalizing f m with
  | nil =>
    intro cs acc fuel hfuel h
    obtain ⟨fuel, rfl⟩ := Nat.exists_eq_add_one_of_ne_zero (Nat.ne_zero_of_lt hfuel)
    obtain ⟨r, hr, hrest⟩ := fieldsFrom_last hname
      (fun h => hvalue (Nat.le_of_lt_succ hfuel) (ends_members [] _) h) h acc
    exact ⟨r, by rw [hr, List.reverse_cons], hrest⟩
  | @cons f' m' fs ms hm' _ ih =>
    intro cs acc fuel hfuel h
    obtain ⟨fuel, rfl⟩ := Nat.exists_eq_add_one_of_ne_zero (Nat.ne_zero_of_lt hfuel)
    have hsum : (memberLexemes false (m' :: ms)).length =
        1 + (m'.2.lexemes.length + (memberLexemes false ms).length + 2) := by
      rw [memberLexemes, List.length_append, List.length_cons, List.length_cons, List.length_append]
      rfl
    have hmember {cs} := @hvalue _ cs fuel (by omega) (ends_members (m' :: ms) rest)
    rw [memberLexemes, List.append_assoc, List.cons_append, List.cons_append,
      List.append_assoc] at h hmember
    obtain ⟨r, hr, hmore⟩ := fieldsFrom_more hname hmember h acc
    obtain ⟨r', hr', hrest⟩ := @ih _ _ hm'.1 hm'.2 _ (f :: acc) fuel (by omega) hmore
    refine ⟨r', ?_, hrest⟩
    rw [hr, hr', List.reverse_cons, List.append_assoc]
    rfl

/-- **A value is read from any text of it** that nests no deeper than is allowed. -/
theorem values_of_spells {j : Json} {t : Phrase} (h : Spells j t) :
    ∀ {depth : Nat}, j.Proper → j.depth ≤ depth → Values depth j t := by
  induction h with
  | null =>
    intro depth _ _ rest cs fuel hfuel _ h
    obtain ⟨fuel, rfl⟩ := Nat.exists_eq_add_of_le' hfuel
    obtain ⟨r, hr, hrest⟩ := h.lexeme
    exact ⟨r, by rw [Phrase.lexemes, List.length_singleton, valueFrom, hr]; rfl, hrest⟩
  | bool b =>
    intro depth _ _ rest cs fuel hfuel _ h
    obtain ⟨fuel, rfl⟩ := Nat.exists_eq_add_of_le' hfuel
    cases b
    · obtain ⟨r, hr, hrest⟩ := h.lexeme
      exact ⟨r, by rw [Phrase.lexemes, List.length_singleton, valueFrom, hr]; rfl, hrest⟩
    · obtain ⟨r, hr, hrest⟩ := h.lexeme
      exact ⟨r, by rw [Phrase.lexemes, List.length_singleton, valueFrom, hr]; rfl, hrest⟩
  | int i =>
    intro depth hj _ rest cs fuel hfuel hrest h
    obtain ⟨fuel, rfl⟩ := Nat.exists_eq_add_of_le' hfuel
    obtain ⟨c, x, r, hx, hc, heq, hls⟩ := number_lexeme (isNumeral_intChars i) h
    cases hj with
    | int hlow hhigh =>
      refine ⟨r, ?_, hls⟩
      rw [Phrase.lexemes, List.length_singleton, valueFrom_number hc hx, heq]
      exact number_intChars hlow hhigh (hrest.stops hls)
  | str hs =>
    intro depth _ _ rest cs fuel hfuel _ h
    obtain ⟨fuel, rfl⟩ := Nat.exists_eq_add_of_le' hfuel
    obtain ⟨r, hr, hls⟩ := quote_lexeme h
    refine ⟨r, ?_, hls⟩
    rw [Phrase.lexemes, List.length_singleton, valueFrom_string hr, string_of_denotes hs]
    rfl
  | @arr js ts hlength hspells ih =>
    intro depth hj hdepth rest cs fuel hfuel hrest h
    rw [Json.depth] at hdepth
    obtain ⟨depth, rfl⟩ := Nat.exists_eq_add_of_le' (Nat.le_trans (Nat.le_add_left 1 _) hdepth)
    have hitems : List.Forall₂ (Values depth) js ts := by
      refine List.forall₂_iff_zip.2 ⟨hlength, fun {j t} hmem => ih hmem ?_ ?_⟩
      · cases hj with
        | arr _ hitems => exact hitems j (List.of_mem_zip hmem).1
      · exact itemsDepth_le.1 (Nat.le_of_add_le_add_right hdepth) j (List.of_mem_zip hmem).1
    have hwf : ∀ t ∈ ts, t.WellFormed :=
      forall_of_forall₂ (List.forall₂_iff_zip.2 ⟨hlength, hspells⟩) Spells.wellFormed
    rw [Phrase.lexemes, List.length_cons, List.length_append, List.length_singleton] at hfuel
    obtain ⟨fuel, rfl⟩ := Nat.exists_eq_add_of_le' (Nat.le_trans (Nat.le_add_left 1 _) hfuel)
    rw [Phrase.lexemes, List.cons_append, List.append_assoc] at h
    -- the first item has no comma before it, and `itemsFrom` begins behind the comma
    rcases valueFrom_list hwf h fuel depth with ⟨rfl, r, hr, hls⟩ | ⟨t, ts, r, rfl, hr, hls⟩
    · cases List.length_eq_zero_iff.1 hlength
      exact ⟨r, hr, hls⟩
    · cases hitems with
      | cons hj hitems =>
        rw [itemLexemes, List.length_append, List.length_append] at hfuel
        have hless : t.lexemes.length + (itemLexemes false ts).length < fuel := by omega
        obtain ⟨r', hr', hend⟩ := itemsFrom_values hj
          (fun t ht => hwf t (List.mem_cons_of_mem _ ht)) hitems hless hls
        exact ⟨r', hr.trans hr', hend⟩
  | @obj fields fs ms hperm hlength hnames hspells ih =>
    intro depth hj hdepth rest cs fuel hfuel hrest h
    rw [Json.depth] at hdepth
    obtain ⟨depth, rfl⟩ := Nat.exists_eq_add_of_le' (Nat.le_trans (Nat.le_add_left 1 _) hdepth)
    cases hj with
    | obj hsorted hproper =>
      have hmembers : List.Forall₂ (fun (f : String × Json) m =>
          Denotes m.1 f.1.toList ∧ Values depth f.2 m.2) fs ms := by
        refine List.forall₂_iff_zip.2 ⟨hlength, fun {f m} hmem => ⟨hnames hmem, ih hmem ?_ ?_⟩⟩
        · exact hproper f.1 f.2 (hperm.mem_iff.1 (List.of_mem_zip hmem).1)
        · exact fieldsDepth_le.1 (Nat.le_of_add_le_add_right hdepth) f.1 f.2
            (hperm.mem_iff.1 (List.of_mem_zip hmem).1)
      rw [Phrase.lexemes, List.length_cons, List.length_append, List.length_singleton] at hfuel
      obtain ⟨fuel, rfl⟩ := Nat.exists_eq_add_of_le' (Nat.le_trans (Nat.le_add_left 1 _) hfuel)
      rw [Phrase.lexemes, List.cons_append, List.append_assoc] at h
      rcases valueFrom_object h fuel depth with ⟨rfl, r, hr, hls⟩ | ⟨k, t, ms, r, rfl, hr, hls⟩
      · cases List.length_eq_zero_iff.1 hlength
        cases hperm.nil_eq
        exact ⟨r, hr, hls⟩
      · cases hmembers with
        | cons hf hmembers =>
          rw [memberLexemes, List.length_append, List.length_cons, List.length_cons,
            List.length_append] at hfuel
          have hless : t.lexemes.length + (memberLexemes false ms).length < fuel := by omega
          obtain ⟨r', hr', hend⟩ := fieldsFrom_values hf.1 hf.2 hmembers hless hls
          refine ⟨r', ?_, hend⟩
          rw [hr, hr', List.reverse_nil, List.nil_append, mkObj, Fields.ofList_of_perm hsorted hperm]

/-- A value whose text is read as a whole. -/
theorem reads_value {j : Json} {t : Phrase} (h : Spells j t) (hj : j.Proper) {depth : Nat}
    (hdepth : j.depth ≤ depth) : Reads value depth t j := by
  intro rest cs hrest hcs
  have hlength := hcs.length_le
  rw [List.length_append] at hlength
  exact values_of_spells h hj hdepth (by omega) hrest hcs

/-! ## Values that are read -/

/-- What is left of a text of which something is read with so much fuel. -/
structure ExactAt (fuel : Nat) : Prop where
  value {t : Phrase} {rest : List (List Char)} {cs r : List Char} {depth : Nat} {j : Json} :
    t.WellFormed → Ends rest → Spaced (t.lexemes ++ rest) cs →
      valueFrom fuel depth cs = .ok (j, r) → Spaced rest r
  items {t : Phrase} {ts : List Phrase} {rest : List (List Char)} {cs r : List Char} {depth : Nat}
    {acc : List Json} {j : Json} : t.WellFormed → (∀ t ∈ ts, t.WellFormed) →
      Spaced (t.lexemes ++ (itemLexemes false ts ++ [']'] :: rest)) cs →
      itemsFrom fuel depth acc cs = .ok (j, r) → Spaced rest r
  fields {m : List Char × Phrase} {ms : List (List Char × Phrase)} {rest : List (List Char)}
    {cs r : List Char} {depth : Nat} {acc : List (String × Json)} {j : Json} : Inner m.1 →
      m.2.WellFormed → (∀ m ∈ ms, Inner m.1) → (∀ m ∈ ms, m.2.WellFormed) →
      Spaced (quote m.1 :: [':'] :: (m.2.lexemes ++ (memberLexemes false ms ++ ['\x7d'] :: rest))) cs →
      fieldsFrom fuel depth acc cs = .ok (j, r) → Spaced rest r

theorem ExactAt.value_succ (ih : ExactAt fuel) (ht : t.WellFormed) (hrest : Ends rest)
    (h : Spaced (t.lexemes ++ rest) cs) (hread : valueFrom (fuel + 1) depth cs = .ok (j, r)) :
    Spaced rest r := by
  cases ht with
  | null =>
    obtain ⟨r', hr', hls⟩ := h.lexeme
    rw [valueFrom, hr'] at hread
    cases hread
    exact hls
  | bool b =>
    cases b
    · obtain ⟨r', hr', hls⟩ := h.lexeme
      rw [valueFrom, hr'] at hread
      cases hread
      exact hls
    · obtain ⟨r', hr', hls⟩ := h.lexeme
      rw [valueFrom, hr'] at hread
      cases hread
      exact hls
  | number hcs =>
    obtain ⟨c, x, r', hx, hc, heq, hls⟩ := number_lexeme hcs h
    rw [valueFrom_number hc hx, heq] at hread
    cases number_numeral hcs (hrest.stops hls) hread
    exact hls
  | string hcs =>
    obtain ⟨r', hr', hls⟩ := quote_lexeme h
    rw [valueFrom_string hr'] at hread
    obtain ⟨y, hy, heq⟩ := Except.map_eq_ok.1 hread
    cases heq
    rw [(string_inner hcs hy).1]
    exact hls
  | list hitems =>
    rw [Phrase.lexemes, List.cons_append, List.append_assoc] at h
    cases depth with
    | zero =>
      obtain ⟨x, hx, -⟩ := h.lexeme
      rw [valueFrom_list_zero hx] at hread
      cases hread
    | succ depth =>
      rcases valueFrom_list hitems h fuel depth with ⟨rfl, r', hr', hls⟩ | ⟨t, ts, r', rfl, hr', hls⟩
      · rw [hr'] at hread
        cases hread
        exact hls
      · rw [hr'] at hread
        exact ih.items (hitems t List.mem_cons_self)
          (fun t ht => hitems t (List.mem_cons_of_mem _ ht)) hls hread
  | object hnames hmembers =>
    rw [Phrase.lexemes, List.cons_append, List.append_assoc] at h
    cases depth with
    | zero =>
      obtain ⟨x, hx, -⟩ := h.lexeme
      rw [valueFrom_object_zero hx] at hread
      cases hread
    | succ depth =>
      rcases valueFrom_object h fuel depth with ⟨rfl, r', hr', hls⟩ | ⟨k, t, ms, r', rfl, hr', hls⟩
      · rw [hr'] at hread
        cases hread
        exact hls
      · rw [hr'] at hread
        exact ih.fields (hnames (k, t) List.mem_cons_self) (hmembers (k, t) List.mem_cons_self)
          (fun m hm => hnames m (List.mem_cons_of_mem _ hm))
          (fun m hm => hmembers m (List.mem_cons_of_mem _ hm)) hls hread

theorem ExactAt.items_succ (ih : ExactAt fuel) {ts : List Phrase} {acc : List Json}
    (ht : t.WellFormed) (hts : ∀ t ∈ ts, t.WellFormed)
    (h : Spaced (t.lexemes ++ (itemLexemes false ts ++ [']'] :: rest)) cs)
    (hread : itemsFrom (fuel + 1) depth acc cs = .ok (j, r)) : Spaced rest r := by
  cases hv : valueFrom fuel depth cs with
  | error e =>
    rw [itemsFrom_error hv] at hread
    cases hread
  | ok x =>
    obtain ⟨v, r₁⟩ := x
    have hls := ih.value ht (ends_items ts _) h hv
    cases ts with
    | nil =>
      obtain ⟨r₂, hr₂, hrest⟩ := itemsFrom_last hv hls acc
      rw [hr₂] at hread
      cases hread
      exact hrest
    | cons t ts =>
      rw [itemLexemes, List.append_assoc, List.append_assoc] at hls
      have ht := hts t List.mem_cons_self
      obtain ⟨r₂, hr₂, hmore⟩ := itemsFrom_more hv ht hls acc
      rw [hr₂] at hread
      exact ih.items ht (fun t ht => hts t (List.mem_cons_of_mem _ ht)) hmore hread

theorem ExactAt.fields_succ (ih : ExactAt fuel) {m : List Char × Phrase}
    {ms : List (List Char × Phrase)} {acc : List (String × Json)} (hm : Inner m.1)
    (ht : m.2.WellFormed) (hnames : ∀ m ∈ ms, Inner m.1) (hmembers : ∀ m ∈ ms, m.2.WellFormed)
    (h : Spaced (quote m.1 :: [':'] :: (m.2.lexemes ++
      (memberLexemes false ms ++ ['\x7d'] :: rest))) cs)
    (hread : fieldsFrom (fuel + 1) depth acc cs = .ok (j, r)) : Spaced rest r := by
  rcases denotes_or_error hm with ⟨n, hn⟩ | herror
  · obtain ⟨r₁, hls, hfields⟩ := fieldsFrom_name hn h
    obtain ⟨hfail, hlast, hmore⟩ := hfields fuel depth acc
    cases hv : valueFrom fuel depth r₁ with
    | error e =>
      rw [hfail hv] at hread
      cases hread
    | ok x =>
      obtain ⟨v, r₂⟩ := x
      have hls' := ih.value ht (ends_members ms _) hls hv
      cases ms with
      | nil =>
        obtain ⟨r₃, hr₃, hrest⟩ := hls'.lexeme
        rw [hlast hv hr₃] at hread
        cases hread
        exact hrest
      | cons m ms =>
        rw [memberLexemes, List.append_assoc, List.cons_append, List.cons_append,
          List.append_assoc] at hls'
        obtain ⟨r₃, hr₃, hnext⟩ := hls'.lexeme
        rw [hmore hv hr₃] at hread
        exact ih.fields (hnames m List.mem_cons_self) (hmembers m List.mem_cons_self)
          (fun m hm => hnames m (List.mem_cons_of_mem _ hm))
          (fun m hm => hmembers m (List.mem_cons_of_mem _ hm)) hnext hread
  · obtain ⟨e, he⟩ := fieldsFrom_error herror h fuel depth acc
    rw [he] at hread
    cases hread

theorem exactAt (fuel : Nat) : ExactAt fuel := by
  -- values, items and fields call each other, so all three go by one induction on the fuel
  induction fuel with
  | zero =>
    refine ⟨fun _ _ _ hread => ?_, fun _ _ _ hread => ?_, fun _ _ _ _ _ hread => ?_⟩
    · cases hread
    · cases hread
    · cases hread
  | succ fuel ih => exact ⟨ih.value_succ, ih.items_succ, ih.fields_succ⟩

/-- **A value that is read** is all of its text. -/
theorem exact_value : Exact value := fun {_ _ _ cs _ _} ht hrest h hread =>
  (exactAt (2 * cs.length + 2)).value ht hrest h hread

end Decoder

end Reactor.Json
