/-
  Decoders on texts of JSON.

  * `Refuses` says that a decoder reads nothing from any text of a phrase;
  * `reads_text`, `reads_natural`, `reads_object`: values that are spelled are read;
    `reads_list` and `reads_table`: so are lists and tables of what is read;
  * `exact_text` to `exact_table`: nothing is left of a text that is read;
    `refuses_list` and `refuses_table`: lists and tables are refused with what they
    hold.
-/
import Reactor.Proofs.Json.Records
import Reactor.Proofs.Json.Values

namespace Reactor.Json.Decoder

open Reader
open Phrase (Ends ends_items ends_members quote comma itemLexemes memberLexemes ne_of_begins)

variable {t : Phrase} {rest ls : List (List Char)} {cs r k : List Char} {fuel depth : Nat}
  {first : Bool} {n : String} {j : Json}

/-- A decoder reads nothing from any text of a phrase. -/
def Refuses {α : Type} (d : Decoder α) (t : Phrase) : Prop :=
  ∀ {depth : Nat} {rest : List (List Char)} {cs : List Char}, Ends rest →
    Spaced (t.lexemes ++ rest) cs → ∀ x, d depth cs ≠ .ok x

/-! ## How a phrase begins -/

/-- Whether a phrase may begin with a character. -/
def begins : Phrase → Char → Bool
  | .null, c => c == 'n'
  | .bool true, c => c == 't'
  | .bool false, c => c == 'f'
  | .number _, c => c == '-' || c.isDigit
  | .string _, c => c == '"'
  | .list _, c => c == '['
  | .object _, c => c == '\x7b'

theorem exists_begins (ht : t.WellFormed) (h : Spaced (t.lexemes ++ ls) cs) :
    ∃ c x, skipBlanks cs = c :: x ∧ begins t c := by
  cases ht with
  | null => obtain ⟨r, hr, -⟩ := h.lexeme; exact ⟨_, _, hr, rfl⟩
  | bool b =>
    cases b
    · obtain ⟨r, hr, -⟩ := h.lexeme; exact ⟨_, _, hr, rfl⟩
    · obtain ⟨r, hr, -⟩ := h.lexeme; exact ⟨_, _, hr, rfl⟩
  | number hcs => obtain ⟨c, x, r, hx, hc, -⟩ := number_lexeme hcs h; exact ⟨c, x, hx, hc⟩
  | string hcs => obtain ⟨r, hr, -⟩ := h.lexeme; exact ⟨_, _, hr, rfl⟩
  | list hitems => obtain ⟨r, hr, -⟩ := h.lexeme; exact ⟨_, _, hr, rfl⟩
  | object hnames hmembers => obtain ⟨r, hr, -⟩ := h.lexeme; exact ⟨_, _, hr, rfl⟩

theorem begins_of_skipBlanks {c : Char} {x : List Char} (ht : t.WellFormed)
    (h : Spaced (t.lexemes ++ ls) cs) (hc : skipBlanks cs = c :: x) : begins t c := by
  obtain ⟨c', x', hc', hbegins⟩ := exists_begins ht h
  rw [hc] at hc'
  cases hc'
  exact hbegins

theorem exists_string (h : begins t '"') : ∃ k, t = .string k := by
  cases t with
  | string k => exact ⟨k, rfl⟩
  | bool b => cases b <;> exact absurd h (by decide)
  | _ => exact absurd h (by simp only [begins]; decide)

theorem exists_list (h : begins t '[') : ∃ items, t = .list items := by
  cases t with
  | list items => exact ⟨items, rfl⟩
  | bool b => cases b <;> exact absurd h (by decide)
  | _ => exact absurd h (by simp only [begins]; decide)

theorem exists_object (h : begins t '\x7b') : ∃ members, t = .object members := by
  cases t with
  | object members => exact ⟨members, rfl⟩
  | bool b => cases b <;> exact absurd h (by decide)
  | _ => exact absurd h (by simp only [begins]; decide)

theorem exists_number {c : Char} (h : begins t c) (hc : (c == '-' || c.isDigit) = true) :
    ∃ l, t = .number l := by
  cases t with
  | number l => exact ⟨l, rfl⟩
  | bool b => cases b <;> exact absurd (beq_iff_eq.1 h) (ne_of_begins hc rfl)
  | _ => exact absurd (beq_iff_eq.1 h) (ne_of_begins hc rfl)

/-! ## Plain values -/

theorem reads_text {s : String} (hk : Denotes k s.toList) : Reads text depth (.string k) (.str s) := by
  intro rest cs hrest h
  obtain ⟨r, hr, hls⟩ := quote_lexeme h
  refine ⟨r, ?_, hls⟩
  rw [text, hr]
  simp only [string_of_denotes hk, Except.ok_bind]

theorem exact_text : Exact text := by
  intro t depth rest cs r a ht hrest h hread
  unfold text at hread
  split at hread
  · rename_i hquote
    obtain ⟨k, rfl⟩ := exists_string (begins_of_skipBlanks ht h hquote)
    obtain ⟨r', hr', hls⟩ := quote_lexeme h
    rw [hquote] at hr'
    cases hr'
    obtain ⟨x, hx, hread⟩ := Except.bind_eq_ok.1 hread
    cases hread
    cases ht with
    | string hk => exact (string_inner hk hx).1 ▸ hls
  · exact absurd hread refuse_ne_ok

theorem reads_natural {n : Nat} (hn : n < Word.count 64) :
    Reads natural depth (.number (intChars n)) (.int n) := by
  intro rest cs hrest h
  obtain ⟨c, x, r, hx, hc, heq, hls⟩ := number_lexeme (isNumeral_intChars n) h
  have hlow : -(Word.count 63 : Int) ≤ n := by omega
  have hread := number_intChars hlow (by exact_mod_cast hn) (hrest.stops hls)
  refine ⟨r, ?_, hls⟩
  rw [natural, hx]
  simp only [hc, if_true, heq, hread, Except.ok_bind]
  exact if_pos (Int.natCast_nonneg n)

theorem exact_natural : Exact natural := by
  intro t depth rest cs r a ht hrest h hread
  obtain ⟨c, x, hx, hbegins⟩ := exists_begins ht h
  rw [natural, hx] at hread
  dsimp only at hread
  split at hread
  · rename_i hc
    obtain ⟨l, rfl⟩ := exists_number hbegins hc
    cases ht with
    | number hl =>
      obtain ⟨c', x', r', hx', -, heq, hls⟩ := number_lexeme hl h
      rw [hx] at hx'
      cases hx'
      obtain ⟨y, hy, hread⟩ := Except.bind_eq_ok.1 hread
      rw [heq] at hy
      cases number_numeral hl (hrest.stops hls) hy
      split at hread
      · split at hread
        · cases hread
          exact hls
        · cases hread
      · cases hread
  · exact absurd hread refuse_ne_ok

theorem reads_object {fields : Fields Json} (h : Spells (.obj fields) t)
    (hproper : (Json.obj fields).Proper) (hdepth : (Json.obj fields).depth ≤ depth) :
    Reads object depth t (.obj fields) := by
  intro rest cs hrest hcs
  have hread := @reads_value _ _ h hproper _ hdepth _ _ hrest hcs.skipBlanks
  cases h with
  | obj =>
    obtain ⟨r, hr, -⟩ := hcs.lexeme
    rw [hr] at hread
    rw [object, hr]
    exact hread

theorem exact_object : Exact object := by
  intro t depth rest cs r a ht hrest h hread
  unfold object at hread
  split at hread
  · rename_i hbrace
    exact exact_value ht hrest h.skipBlanks (hbrace ▸ hread)
  · exact absurd hread refuse_ne_ok

/-! ## Lists -/

/-- Behind its comma stands the next item. -/
theorem nextItem_item (ht : t.WellFormed) (h : Spaced (comma first ++ (t.lexemes ++ ls)) cs) :
    ∃ r, nextItem first cs = .ok (some r) ∧ Spaced (t.lexemes ++ ls) r := by
  obtain ⟨c, l, ls', hfirst, -, hmark⟩ := ht.exists_lexeme
  cases first with
  | true =>
    obtain ⟨x, hx, -⟩ := Spaced.lexeme (hfirst ▸ h : Spaced ((c :: l) :: ls' ++ ls) cs)
    refine ⟨skipBlanks cs, ?_, Spaced.skipBlanks h⟩
    rw [nextItem, hx]
    split
    · rename_i heq
      exact absurd (List.cons.inj heq).1 fun hc => hmark (by rw [hc]; decide)
    · rename_i heq
      exact absurd (List.cons.inj heq).1 fun hc => hmark (by rw [hc]; decide)
    · rename_i heq
      cases heq
    · rfl
  | false =>
    obtain ⟨r, hr, hls⟩ := h.lexeme
    obtain ⟨x, hx, -⟩ := Spaced.lexeme (hfirst ▸ hls : Spaced ((c :: l) :: ls' ++ ls) r)
    refine ⟨skipBlanks r, ?_, hls.skipBlanks⟩
    rw [nextItem, hr]
    simp only [List.nil_append, Bool.false_eq_true, if_false, hx]
    split
    · rename_i heq
      exact absurd (List.cons.inj heq).1 fun hc => hmark (by rw [hc]; decide)
    · rename_i heq
      cases heq
    · rfl

theorem nextItem_end (h : Spaced ([']'] :: ls) cs) : nextItem first cs = .ok none := by
  obtain ⟨r, hr, -⟩ := h.lexeme
  rw [nextItem, hr]
  rfl

theorem closeList_end (h : Spaced ([']'] :: ls) cs) : ∃ r, closeList cs = .ok r ∧ Spaced ls r := by
  obtain ⟨r, hr, hls⟩ := h.lexeme
  refine ⟨r, ?_, hls⟩
  rw [closeList, hr]
  rfl

theorem closeList_item (ht : t.WellFormed) (h : Spaced (comma first ++ (t.lexemes ++ ls)) cs) :
    ∃ e, closeList cs = .error e := by
  have hother {c : Char} {x : List Char} (hx : skipBlanks cs = c :: x) (hc : c ≠ ']') :
      closeList cs = .error .malformed := by
    unfold closeList
    rw [hx]
    split
    · rename_i heq
      exact absurd (List.cons.inj heq).1 hc
    · rfl
  cases first with
  | true =>
    obtain ⟨c, l, ls', hfirst, -, hmark⟩ := ht.exists_lexeme
    obtain ⟨x, hx, -⟩ := Spaced.lexeme (hfirst ▸ h : Spaced ((c :: l) :: ls' ++ ls) cs)
    exact ⟨_, hother hx fun hc => hmark (by rw [hc]; decide)⟩
  | false =>
    obtain ⟨x, hx, -⟩ := h.lexeme
    exact ⟨_, hother hx (by decide)⟩

/-- Items that are read one by one. -/
theorem items_of_reads {d : Decoder Json} {ts : List Phrase} {js : List Json}
    (hread : List.Forall₂ (Reads d depth) ts js) :
    ∀ {fuel : Nat} {first : Bool} {acc : List Json} {cs : List Char}, (∀ t ∈ ts, t.WellFormed) →
      ts.length < fuel → Spaced (itemLexemes first ts ++ [']'] :: rest) cs →
      ∃ r, items (d depth) fuel first acc cs = .ok (.arr (acc.reverse ++ js), r) ∧
        Spaced rest r := by
  induction hread with
  | nil =>
    intro fuel first acc cs _ hfuel h
    obtain ⟨fuel, rfl⟩ := Nat.exists_eq_add_one_of_ne_zero (Nat.ne_zero_of_lt hfuel)
    obtain ⟨r, hr, hrest⟩ := closeList_end h
    refine ⟨r, ?_, hrest⟩
    rw [items, nextItem_end h]
    simp only [Except.ok_bind, hr, List.append_nil]
  | @cons t j ts js ht _ ih =>
    intro fuel first acc cs hwf hfuel h
    obtain ⟨fuel, rfl⟩ := Nat.exists_eq_add_one_of_ne_zero (Nat.ne_zero_of_lt hfuel)
    rw [itemLexemes, List.append_assoc, List.append_assoc] at h
    obtain ⟨r₁, hr₁, hitem⟩ := nextItem_item (hwf t List.mem_cons_self) h
    obtain ⟨r₂, hr₂, hmore⟩ := ht (ends_items ts _) hitem
    obtain ⟨r₃, hr₃, hrest⟩ := @ih fuel false (j :: acc) r₂
      (fun t ht => hwf t (List.mem_cons_of_mem _ ht)) (Nat.lt_of_succ_lt_succ hfuel) hmore
    refine ⟨r₃, ?_, hrest⟩
    rw [items, hr₁]
    simp only [Except.ok_bind, hr₂, hr₃, List.reverse_cons, List.append_assoc, List.singleton_append]

/-- Items that were read are all read, and nothing is left of them. -/
theorem items_read {d : Decoder Json} (hexact : Exact d) :
    ∀ {ts : List Phrase} {fuel : Nat} {first : Bool} {acc : List Json} {cs r : List Char},
      (∀ t ∈ ts, t.WellFormed) → Spaced (itemLexemes first ts ++ [']'] :: rest) cs →
      items (d depth) fuel first acc cs = .ok (j, r) →
      Spaced rest r ∧ ∀ t ∈ ts, ¬ Refuses d t
  | _, 0, _, _, _, _, _, _, hread => by cases hread
  | [], fuel + 1, first, acc, cs, r, _, h, hread => by
    obtain ⟨r', hr', hrest⟩ := closeList_end h
    rw [items, nextItem_end h] at hread
    simp only [Except.ok_bind, hr'] at hread
    cases hread
    exact ⟨hrest, List.forall_mem_nil _⟩
  | t :: ts, fuel + 1, first, acc, cs, r, hwf, h, hread => by
    rw [itemLexemes, List.append_assoc, List.append_assoc] at h
    obtain ⟨r₁, hr₁, hitem⟩ := nextItem_item (hwf t List.mem_cons_self) h
    rw [items, hr₁, Except.ok_bind] at hread
    obtain ⟨⟨v, r₂⟩, hv, hread⟩ := Except.bind_eq_ok.1 hread
    have hmore := hexact (hwf t List.mem_cons_self) (ends_items ts _) hitem hv
    obtain ⟨hrest, hts⟩ := items_read (d := d) hexact (fun t ht => hwf t (List.mem_cons_of_mem _ ht)) hmore hread
    refine ⟨hrest, List.forall_mem_cons.2 ⟨fun hrefuses => ?_, hts⟩⟩
    exact hrefuses (ends_items ts _) hitem _ hv

theorem list_open {d : Decoder Json} {x : List Char} (h : skipBlanks cs = '[' :: x) :
    list d (depth + 1) cs = items (d depth) (x.length + 1) true [] x := by
  unfold list
  rw [h]
  rfl

theorem list_open_zero {d : Decoder Json} {x : List Char} (h : skipBlanks cs = '[' :: x) :
    list d 0 cs = .error .malformed := by
  unfold list
  rw [h]
  rfl

/-- **A list is read** if its items are. -/
theorem reads_list {d : Decoder Json} {ts : List Phrase} {js : List Json}
    (hwf : ∀ t ∈ ts, t.WellFormed) (hread : List.Forall₂ (Reads d depth) ts js) :
    Reads (list d) (depth + 1) (.list ts) (.arr js) := by
  intro rest cs hrest h
  rw [Phrase.lexemes, List.cons_append, List.append_assoc] at h
  obtain ⟨r, hr, hls⟩ := h.lexeme
  have hlength : ts.length < r.length + 1 := by
    have hle := hls.length_le
    have hitems := Phrase.length_itemLexemes true ts
    have hmany := Phrase.length_le_itemLexemes ts
    rw [List.length_append, List.length_append, List.length_singleton] at hle
    omega
  rw [list_open hr]
  exact items_of_reads hread hwf hlength hls

/-- What a list that was read shows of its items. -/
theorem list_read {d : Decoder Json} (hexact : Exact d) {ts : List Phrase}
    (hwf : ∀ t ∈ ts, t.WellFormed) (h : Spaced ((Phrase.list ts).lexemes ++ rest) cs)
    (hread : list d depth cs = .ok (j, r)) : Spaced rest r ∧ ∀ t ∈ ts, ¬ Refuses d t := by
  rw [Phrase.lexemes, List.cons_append, List.append_assoc] at h
  obtain ⟨x, hx, hls⟩ := h.lexeme
  cases depth with
  | zero =>
    rw [list_open_zero hx] at hread
    cases hread
  | succ depth =>
    rw [list_open hx] at hread
    exact items_read hexact hwf hls hread

/-- Only lists are read as lists. -/
theorem exists_list_of_read {d : Decoder Json} (ht : t.WellFormed)
    (h : Spaced (t.lexemes ++ rest) cs) (hread : list d depth cs = .ok (j, r)) :
    ∃ ts, t = .list ts := by
  unfold list at hread
  split at hread
  · cases hread
  · rename_i hbracket
    exact exists_list (begins_of_skipBlanks ht h hbracket)
  · exact absurd hread refuse_ne_ok

theorem exact_list {d : Decoder Json} (hexact : Exact d) : Exact (list d) := by
  intro t depth rest cs r a ht hrest h hread
  obtain ⟨ts, rfl⟩ := exists_list_of_read ht h hread
  cases ht with
  | list hwf => exact (list_read hexact hwf h hread).1

/-- **A list is refused** if one of its items is. -/
theorem refuses_list {d : Decoder Json} (hexact : Exact d) {ts : List Phrase}
    (hwf : ∀ t ∈ ts, t.WellFormed) (ht : t ∈ ts) (hitem : Refuses d t) :
    Refuses (list d) (.list ts) :=
  fun _ h _ hread => (list_read hexact hwf h hread).2 t ht hitem

/-! ## Members -/

variable {m : List Char × Phrase} {ms : List (List Char × Phrase)}

/-- Behind its comma stands the next name, and behind its colon the value. -/
theorem nextField_member (hk : Denotes k n.toList)
    (h : Spaced (comma first ++ (quote k :: [':'] :: ls)) cs) :
    ∃ r r', nextField first cs = .ok (some (n, r)) ∧ afterColon r = .ok r' ∧ Spaced ls r' := by
  have hname {cs : List Char} (h : Spaced (quote k :: [':'] :: ls) cs) :
      ∃ x r r', skipBlanks cs = '"' :: x ∧ string x = .ok (n, r) ∧ afterColon r = .ok r' ∧
        Spaced ls r' := by
    obtain ⟨r, hr, hcolon⟩ := quote_lexeme h
    obtain ⟨r', hr', hls⟩ := hcolon.lexeme
    refine ⟨_, r, r', hr, string_of_denotes hk r, ?_, hls⟩
    rw [afterColon, hr']
    rfl
  cases first with
  | true =>
    obtain ⟨x, r, r', hx, hstring, hafter, hls⟩ := hname h
    refine ⟨r, r', ?_, hafter, hls⟩
    rw [nextField, hx]
    show Except.bind (string x) (fun y => .ok (some y)) = _
    rw [hstring]
    rfl
  | false =>
    obtain ⟨y, hy, hls⟩ := h.lexeme
    obtain ⟨x, r, r', hx, hstring, hafter, hls⟩ := hname hls
    refine ⟨r, r', ?_, hafter, hls⟩
    rw [nextField, hy]
    simp only [Bool.false_eq_true, if_false, List.nil_append, hx, hstring]
    rfl

/-- A name that stands for no text. -/
theorem nextField_error (hk : ∀ r, ∃ e, string (k ++ '"' :: r) = .error e)
    (h : Spaced (comma first ++ (quote k :: ls)) cs) : ∃ e, nextField first cs = .error e := by
  cases first with
  | true =>
    obtain ⟨r, hr, -⟩ := quote_lexeme h
    obtain ⟨e, he⟩ := hk r
    refine ⟨e, ?_⟩
    rw [nextField, hr]
    show Except.bind (string (k ++ '"' :: r)) (fun y => .ok (some y)) = _
    rw [he]
    rfl
  | false =>
    obtain ⟨y, hy, hls⟩ := h.lexeme
    obtain ⟨r, hr, -⟩ := quote_lexeme hls
    obtain ⟨e, he⟩ := hk r
    refine ⟨e, ?_⟩
    rw [nextField, hy]
    simp only [Bool.false_eq_true, if_false, List.nil_append, hr, he]
    rfl

theorem nextField_end (h : Spaced (['\x7d'] :: ls) cs) : nextField first cs = .ok none := by
  obtain ⟨r, hr, -⟩ := h.lexeme
  rw [nextField, hr]
  rfl

theorem closeObject_end (h : Spaced (['\x7d'] :: ls) cs) :
    ∃ r, closeObject cs = .ok r ∧ Spaced ls r := by
  obtain ⟨r, hr, hls⟩ := h.lexeme
  refine ⟨r, ?_, hls⟩
  rw [closeObject, hr]
  rfl

/-! ## Tables -/

/-- Members that are read one by one. -/
theorem entries_of_reads {d : Decoder Json} {fs : Fields Json}
    (hread : List.Forall₂ (fun (f : String × Json) (m : List Char × Phrase) =>
      Denotes m.1 f.1.toList ∧ Reads d depth m.2 f.2) fs ms) :
    ∀ {fuel : Nat} {first : Bool} {acc : Fields Json} {cs : List Char}, ms.length < fuel →
      Spaced (memberLexemes first ms ++ ['\x7d'] :: rest) cs →
      ∃ r, entries (d depth) fuel first acc cs =
        .ok (.obj (fs.foldl (fun out f => Fields.insert f.1 f.2 out) acc), r) ∧ Spaced rest r := by
  induction hread with
  | nil =>
    intro fuel first acc cs hfuel h
    obtain ⟨fuel, rfl⟩ := Nat.exists_eq_add_one_of_ne_zero (Nat.ne_zero_of_lt hfuel)
    obtain ⟨r, hr, hrest⟩ := closeObject_end h
    refine ⟨r, ?_, hrest⟩
    rw [entries, nextField_end h]
    simp only [Except.ok_bind, hr, List.foldl_nil]
  | @cons f m fs ms hm _ ih =>
    intro fuel first acc cs hfuel h
    obtain ⟨fuel, rfl⟩ := Nat.exists_eq_add_one_of_ne_zero (Nat.ne_zero_of_lt hfuel)
    rw [memberLexemes, List.append_assoc, List.cons_append, List.cons_append, List.append_assoc] at h
    obtain ⟨r₁, r₂, hname, hcolon, hvalue⟩ := nextField_member hm.1 h
    obtain ⟨r₃, hr₃, hmore⟩ := hm.2 (ends_members ms _) hvalue
    obtain ⟨r₄, hr₄, hrest⟩ := @ih fuel false (Fields.insert f.1 f.2 acc) r₃
      (Nat.lt_of_succ_lt_succ hfuel) hmore
    refine ⟨r₄, ?_, hrest⟩
    rw [entries, hname]
    simp only [Except.ok_bind, hcolon, hr₃, hr₄, List.foldl_cons]

/-- Members that were read are all read, and nothing is left of them. -/
theorem entries_read {d : Decoder Json} (hexact : Exact d) :
    ∀ {ms : List (List Char × Phrase)} {fuel : Nat} {first : Bool} {acc : Fields Json}
      {cs r : List Char}, (∀ m ∈ ms, Inner m.1) → (∀ m ∈ ms, m.2.WellFormed) →
      Spaced (memberLexemes first ms ++ ['\x7d'] :: rest) cs →
      entries (d depth) fuel first acc cs = .ok (j, r) →
      Spaced rest r ∧ ∀ m ∈ ms, ¬ Refuses d m.2
  | _, 0, _, _, _, _, _, _, _, hread => by cases hread
  | [], fuel + 1, first, acc, cs, r, _, _, h, hread => by
    obtain ⟨r', hr', hrest⟩ := closeObject_end h
    rw [entries, nextField_end h] at hread
    simp only [Except.ok_bind, hr'] at hread
    cases hread
    exact ⟨hrest, List.forall_mem_nil _⟩
  | (k, t) :: ms, fuel + 1, first, acc, cs, r, hnames, hwf, h, hread => by
    rw [memberLexemes, List.append_assoc, List.cons_append, List.cons_append, List.append_assoc] at h
    rw [entries] at hread
    rcases denotes_or_error (hnames _ List.mem_cons_self) with ⟨n, hn⟩ | herror
    · obtain ⟨r₁, r₂, hname, hcolon, hvalue⟩ := nextField_member hn h
      rw [hname] at hread
      simp only [Except.ok_bind, hcolon] at hread
      obtain ⟨⟨v, r₃⟩, hv, hread⟩ := Except.bind_eq_ok.1 hread
      have hmore := hexact (hwf _ List.mem_cons_self) (ends_members ms _) hvalue hv
      obtain ⟨hrest, hms⟩ := entries_read (d := d) hexact
        (fun m hm => hnames m (List.mem_cons_of_mem _ hm))
        (fun m hm => hwf m (List.mem_cons_of_mem _ hm)) hmore hread
      refine ⟨hrest, List.forall_mem_cons.2 ⟨fun hrefuses => ?_, hms⟩⟩
      exact hrefuses (ends_members ms _) hvalue _ hv
    · obtain ⟨e, he⟩ := nextField_error herror h
      rw [he] at hread
      cases hread

theorem table_open {d : Decoder Json} {x : List Char} (h : skipBlanks cs = '\x7b' :: x) :
    table d (depth + 1) cs = entries (d depth) (x.length + 1) true [] x := by
  unfold table
  rw [h]
  rfl

theorem table_open_zero {d : Decoder Json} {x : List Char} (h : skipBlanks cs = '\x7b' :: x) :
    table d 0 cs = .error .malformed := by
  unfold table
  rw [h]
  rfl

theorem length_lt_of_members {x : List Char}
    (h : Spaced (memberLexemes true ms ++ ['\x7d'] :: rest) x) : ms.length < x.length + 1 := by
  have hle := h.length_le
  have hmembers := Phrase.length_memberLexemes true ms
  have hmany := Phrase.length_le_memberLexemes ms
  rw [List.length_append, List.length_cons] at hle
  omega

/-- **A table is read** if its values are, in whatever order they stand. -/
theorem reads_table {d : Decoder Json} {fields fs : Fields Json} (hsorted : fields.Sorted)
    (hperm : fs.Perm fields) (hread : List.Forall₂ (fun (f : String × Json) (m : List Char × Phrase) =>
      Denotes m.1 f.1.toList ∧ Reads d depth m.2 f.2) fs ms) :
    Reads (table d) (depth + 1) (.object ms) (.obj fields) := by
  intro rest cs hrest h
  rw [Phrase.lexemes, List.cons_append, List.append_assoc] at h
  obtain ⟨x, hx, hls⟩ := h.lexeme
  have hn : (fs.map (·.1)).Nodup := (hperm.map (·.1)).nodup_iff.2 hsorted.nodup
  have hfields : fs.foldl (fun out f => Fields.insert f.1 f.2 out) [] = fields :=
    Fields.Sorted.ext_mem (Fields.sorted_foldl_insert .nil) hsorted fun k v =>
      ((Fields.perm_foldl_insert hn).trans hperm).mem_iff
  obtain ⟨r, hr, hend⟩ := @entries_of_reads _ _ _ _ _ hread _ true [] _ (length_lt_of_members hls) hls
  exact ⟨r, by rw [table_open hx, ← hfields]; exact hr, hend⟩

/-- What a table that was read shows of its members. -/
theorem table_read {d : Decoder Json} (hexact : Exact d) (hnames : ∀ m ∈ ms, Inner m.1)
    (hwf : ∀ m ∈ ms, m.2.WellFormed) (h : Spaced ((Phrase.object ms).lexemes ++ rest) cs)
    (hread : table d depth cs = .ok (j, r)) :
    Spaced rest r ∧ ∀ m ∈ ms, ¬ Refuses d m.2 := by
  rw [Phrase.lexemes, List.cons_append, List.append_assoc] at h
  obtain ⟨x, hx, hls⟩ := h.lexeme
  cases depth with
  | zero =>
    rw [table_open_zero hx] at hread
    cases hread
  | succ depth =>
    rw [table_open hx] at hread
    exact entries_read hexact hnames hwf hls hread

/-- Only objects are read as tables. -/
theorem exists_object_of_read {d : Decoder Json} (ht : t.WellFormed)
    (h : Spaced (t.lexemes ++ rest) cs) (hread : table d depth cs = .ok (j, r)) :
    ∃ ms, t = .object ms := by
  unfold table at hread
  split at hread
  · cases hread
  · rename_i hbrace
    exact exists_object (begins_of_skipBlanks ht h hbrace)
  · exact absurd hread refuse_ne_ok

theorem exact_table {d : Decoder Json} (hexact : Exact d) : Exact (table d) := by
  intro t depth rest cs r a ht hrest h hread
  obtain ⟨ms, rfl⟩ := exists_object_of_read ht h hread
  cases ht with
  | object hnames hwf => exact (table_read hexact hnames hwf h hread).1

/-- **A table is refused** if one of its values is. -/
theorem refuses_table {d : Decoder Json} (hexact : Exact d) (hnames : ∀ m ∈ ms, Inner m.1)
    (hwf : ∀ m ∈ ms, m.2.WellFormed) (hm : m ∈ ms) (hitem : Refuses d m.2) :
    Refuses (table d) (.object ms) :=
  fun _ h _ hread => (table_read hexact hnames hwf h hread).2 m hm hitem

end Reactor.Json.Decoder
