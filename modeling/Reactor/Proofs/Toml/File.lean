/-
  Files of tables, written and read.

  * `Laid` says that a text has some tables one after the other, with empty
    lines anywhere between them; the text that is written for a file has;
  * `statementsFrom_laid`: the statements of such a text are the headers and the
    entries of its tables;
  * `assemble_sections`: these describe the tables;
  * `read_laid`: so the tables are read back.
-/
import Reactor.Proofs.Toml.Items

namespace Reactor.Toml

open Text (exists_toDigits cons_ne_cons)
open Writer (Item Section_)

/-! ## Keys -/

/-- A key that needs no quotes. -/
structure Bare (k : String) : Prop where
  nonempty : k ≠ ""
  bare : ∀ c ∈ k.toList, isBare c

instance (k : String) : Decidable (Bare k) :=
  decidable_of_iff (k ≠ "" ∧ k.toList.all isBare)
    ⟨fun h => ⟨h.1, List.all_eq_true.1 h.2⟩, fun h => ⟨h.nonempty, List.all_eq_true.2 h.bare⟩⟩

theorem not_blank_of_bare {c : Char} (h : isBare c) : isBlank c = false := by
  by_contra hblank
  simp only [isBlank, Bool.not_eq_false, Bool.or_eq_true, beq_iff_eq] at hblank
  rcases hblank with rfl | rfl <;> exact absurd h (by decide)

theorem Bare.exists_cons {k : String} (h : Bare k) :
    ∃ c cs, k.toList = c :: cs ∧ isBare c ∧ ∀ d ∈ cs, isBare d := by
  have hbare := h.bare
  cases hk : k.toList with
  | nil => exact absurd (String.toList_eq_nil_iff.1 hk) h.nonempty
  | cons c cs =>
    rw [hk] at hbare
    exact ⟨c, cs, rfl, hbare c List.mem_cons_self, fun d hd => hbare d (List.mem_cons_of_mem _ hd)⟩

theorem simpleKey_bare {k : String} (h : Bare k) {c : Char} (hc : isBare c = false)
    (r : List Char) : simpleKey (k.toList ++ c :: r) = some (k, c :: r) := by
  obtain ⟨d, ds, hk, hd, hds⟩ := h.exists_cons
  have hall : ∀ x ∈ k.toList, isBare x := h.bare
  have htake : (k.toList ++ c :: r).takeWhile isBare = k.toList := by
    rw [List.takeWhile_append_of_pos hall, List.takeWhile_cons_of_neg (by simp [hc]),
      List.append_nil]
  have hdrop : (k.toList ++ c :: r).dropWhile isBare = c :: r := by
    rw [List.dropWhile_append_of_pos hall, List.dropWhile_cons_of_neg (by simp [hc])]
  unfold simpleKey
  split
  · rename_i heq
    rw [hk] at heq
    exact absurd heq (cons_ne_cons hd (by decide))
  · rename_i heq
    rw [hk] at heq
    exact absurd heq (cons_ne_cons hd (by decide))
  · rw [htake, hdrop]
    dsimp only
    rw [String.ofList_toList, if_neg (by simp [hk])]

/-- A key without dots. -/
theorem key_bare {k : String} (h : Bare k) {c d : Char} {r r' : List Char} (hc : isBare c = false)
    (hskip : skipBlanks (c :: r) = d :: r') (hd : d ≠ '.') :
    key (k.toList ++ c :: r) = some ([k], d :: r') := by
  obtain ⟨e, es, hk, he, -⟩ := h.exists_cons
  have hstart : skipBlanks (k.toList ++ c :: r) = k.toList ++ c :: r := by
    rw [hk]
    exact List.dropWhile_cons_of_neg (by simp [not_blank_of_bare he])
  show keyOf (78 + 1) _ = _
  rw [keyOf, hstart, simpleKey_bare h hc, Option.bind_eq_bind, Option.bind_some]
  dsimp only
  rw [hskip]
  split
  · rename_i heq
    exact absurd (List.cons.inj heq).1 hd
  · rfl

/-! ## Lines -/

theorem endLine_of_bare {c : Char} (h : isBare c) (r : List Char) : endLine (c :: r) = none := by
  have hskip : skipBlanks (c :: r) = c :: r :=
    List.dropWhile_cons_of_neg (by simp [not_blank_of_bare h])
  have hline : newline? (c :: r) = none := by
    unfold newline?
    split
    · rename_i heq
      exact absurd heq (cons_ne_cons h (by decide))
    · rename_i heq
      exact absurd heq (cons_ne_cons h (by decide))
    · rfl
  unfold endLine
  rw [hskip]
  split
  · rename_i heq
    exact absurd heq (cons_ne_cons h (by decide))
  · exact hline

/-- A line with a statement. -/
theorem statementsFrom_line {cs r r' : List Char} {st : Statement} (hskip : skipBlanks cs = cs)
    (hnone : endLine cs = none) (hst : statement cs = some (st, r)) (hr : endLine r = some r')
    (fuel : Nat) : statementsFrom (fuel + 1) cs = (statementsFrom fuel r').map (st :: ·) := by
  rw [statementsFrom, hskip]
  split
  · cases hnone
  · rw [hnone]
    dsimp only
    rw [hst, Option.bind_eq_bind, Option.bind_some]
    dsimp only
    rw [hr, Option.bind_eq_bind, Option.bind_some]
    cases statementsFrom fuel r' <;> rfl

/-- A value does not begin with a blank. -/
theorem skipBlanks_write (i : Item) (r : List Char) :
    skipBlanks (i.write ++ r) = i.write ++ r := by
  cases i with
  | text s =>
    obtain ⟨q, t, hs, hq⟩ := exists_quote s
    rw [Item.write, hs]
    rcases hq with rfl | rfl <;> rfl
  | nat n =>
    obtain ⟨c, cs, hn, hc, -⟩ := exists_toDigits n
    rw [Item.write, hn]
    refine List.dropWhile_cons_of_neg ?_
    intro hblank
    simp only [isBlank, Bool.or_eq_true, beq_iff_eq] at hblank
    rcases hblank with rfl | rfl <;> exact absurd hc (by decide)
  | bool b => cases b <;> rfl
  | texts ss => rcases ss with _ | ⟨s, _ | ⟨s', ss⟩⟩ <;> rfl

/-- The statement of an entry. -/
def entryStatement (e : String × Item) : Statement := .entry [e.1] e.2.toValue

/-- The statements of a table. -/
def Writer.Section_.statements (s : Section_) : List Statement :=
  .table [s.name] :: s.entries.map entryStatement

/-- A table that can be read: its name and its keys need no quotes, and its numbers
    have no more than 63 bits. -/
structure Writer.Section_.Fits (s : Section_) : Prop where
  name : Bare s.name
  entries : ∀ e ∈ s.entries, Bare e.1 ∧ e.2.Fits

theorem statementsFrom_header {k : String} (h : Bare k) (fuel : Nat) (r : List Char) :
    statementsFrom (fuel + 1) ('[' :: (k.toList ++ ']' :: '\n' :: r)) =
      (statementsFrom fuel r).map (.table [k] :: ·) := by
  refine statementsFrom_line (r := '\n' :: r) rfl rfl ?_ rfl fuel
  obtain ⟨c, cs, hk, hc, -⟩ := h.exists_cons
  have hkey := key_bare h (c := ']') (r := '\n' :: r) (by decide) rfl (by decide)
  unfold statement
  split
  · rename_i heq
    rw [hk] at heq
    obtain ⟨-, heq⟩ := List.cons.inj heq
    exact absurd heq (cons_ne_cons hc (by decide))
  · rename_i heq
    obtain ⟨-, rfl⟩ := List.cons.inj heq
    rw [hkey]
    rfl
  · rename_i h1 h2
    exact absurd rfl (h2 _)

theorem statementsFrom_entry {e : String × Item} (hk : Bare e.1) (he : e.2.Fits) (fuel : Nat)
    (r : List Char) : statementsFrom (fuel + 1) (Writer.entry e ++ r) =
      (statementsFrom fuel r).map (entryStatement e :: ·) := by
  obtain ⟨c, cs, hc, hbare, -⟩ := hk.exists_cons
  have htext : Writer.entry e ++ r =
      e.1.toList ++ ' ' :: '=' :: ' ' :: (e.2.write ++ '\n' :: r) := by
    simp [Writer.entry]
  have hkey := key_bare hk (c := ' ') (r := '=' :: ' ' :: (e.2.write ++ '\n' :: r)) (by decide) rfl
    (by decide)
  have hvalue := value_write he r
  rw [htext]
  refine statementsFrom_line (r := '\n' :: r) ?_ ?_ ?_ rfl fuel
  · rw [hc]
    exact List.dropWhile_cons_of_neg (by simp [not_blank_of_bare hbare])
  · rw [hc]
    exact endLine_of_bare hbare _
  · unfold statement
    split
    · rename_i heq
      rw [hc] at heq
      exact absurd heq (cons_ne_cons hbare (by decide))
    · rename_i heq
      rw [hc] at heq
      exact absurd heq (cons_ne_cons hbare (by decide))
    · rw [hkey, Option.bind_eq_bind, Option.bind_some]
      show ((value (skipBlanks (e.2.write ++ '\n' :: r))).bind fun p =>
        some (Statement.entry [e.1] p.1, p.2)) = _
      rw [skipBlanks_write, hvalue]
      rfl

theorem statementsFrom_entries : ∀ {es : List (String × Item)},
    (∀ e ∈ es, Bare e.1 ∧ e.2.Fits) → ∀ (fuel : Nat) (r : List Char),
      statementsFrom (fuel + es.length) (es.flatMap Writer.entry ++ r) =
        (statementsFrom fuel r).map (es.map entryStatement ++ ·)
  | [], _, fuel, r => by
    show statementsFrom fuel r = _
    cases statementsFrom fuel r <;> rfl
  | e :: es, h, fuel, r => by
    obtain ⟨hk, he⟩ := h e List.mem_cons_self
    have htail := statementsFrom_entries (fun e' h' => h e' (List.mem_cons_of_mem _ h')) fuel r
    rw [List.flatMap_cons, List.append_assoc, List.length_cons, ← Nat.add_assoc,
      statementsFrom_entry hk he, htail, Option.map_map]
    rfl

theorem statementsFrom_section {s : Section_} (h : s.Fits) (fuel : Nat) (r : List Char) :
    statementsFrom (fuel + s.entries.length + 1) (s.write ++ r) =
      (statementsFrom fuel r).map (s.statements ++ ·) := by
  have htext : s.write ++ r =
      '[' :: (s.name.toList ++ ']' :: '\n' :: (s.entries.flatMap Writer.entry ++ r)) := by
    simp [Section_.write]
  rw [htext, statementsFrom_header h.name, statementsFrom_entries h.entries, Option.map_map]
  rfl

/-! ## Texts -/

/-- Some tables one after the other, with empty lines anywhere between them. -/
inductive Laid : List Section_ → List Char → Prop
  | nil : Laid [] []
  | emptyLine {ss : List Section_} {cs : List Char} : Laid ss cs → Laid ss ('\n' :: cs)
  | section_ {s : Section_} {ss : List Section_} {cs : List Char} :
      Laid ss cs → Laid (s :: ss) (s.write ++ cs)

/-- The text that is written for a file of tables. -/
theorem laid_file (ss : List Section_) : Laid ss (Writer.file ss).toList := by
  have hlaid : ∀ ss : List Section_, Laid ss (List.intercalate ['\n'] (ss.map Section_.write)) := by
    intro ss
    induction ss with
    | nil => exact .nil
    | cons s ss ih =>
      cases ss with
      | nil => simpa [List.intercalate] using Laid.section_ (s := s) .nil
      | cons s' ss =>
        have hcons : List.intercalate ['\n'] ((s :: s' :: ss).map Section_.write) =
            s.write ++ '\n' :: List.intercalate ['\n'] ((s' :: ss).map Section_.write) := by
          simp [List.intercalate]
        rw [hcons]
        exact .section_ (.emptyLine ih)
  rw [Writer.file, String.toList_ofList]
  exact hlaid ss

theorem length_lt_write (s : Section_) : s.entries.length < s.write.length := by
  have hentries : ∀ es : List (String × Item), es.length ≤ (es.flatMap Writer.entry).length := by
    intro es
    induction es with
    | nil => exact Nat.le_refl _
    | cons e es ih =>
      rw [List.flatMap_cons, List.length_append, List.length_cons, Writer.entry]
      simp only [List.length_append, List.length_cons]
      omega
  have hle := hentries s.entries
  simp only [Section_.write, List.length_cons, List.length_append]
  omega

/-- **The statements of a text** are the headers and the entries of its tables. -/
theorem statementsFrom_laid {ss : List Section_} {cs : List Char} (h : Laid ss cs)
    (hfits : ∀ s ∈ ss, s.Fits) : ∀ fuel, cs.length < fuel →
      statementsFrom fuel cs = some (ss.flatMap Section_.statements) := by
  induction h with
  | nil =>
    intro fuel hfuel
    obtain ⟨fuel, rfl⟩ := Nat.exists_eq_add_one.2 hfuel
    rfl
  | emptyLine _ ih =>
    intro fuel hfuel
    obtain ⟨fuel, rfl⟩ := Nat.exists_eq_add_one.2 (Nat.zero_lt_of_lt hfuel)
    exact ih hfits fuel (Nat.lt_of_succ_lt_succ hfuel)
  | @section_ s ss cs _ ih =>
    intro fuel hfuel
    have hlength := length_lt_write s
    rw [List.length_append] at hfuel
    obtain ⟨fuel, rfl⟩ := Nat.exists_eq_add_of_le' (show s.entries.length + 1 ≤ fuel by omega)
    rw [← Nat.add_assoc, statementsFrom_section (hfits s List.mem_cons_self),
      ih (fun s' hs' => hfits s' (List.mem_cons_of_mem _ hs')) fuel (by omega)]
    rfl

/-! ## Tables -/

namespace Entries

theorem get?_eq_none {k : String} {es : Entries} : es.get? k = none ↔ k ∉ es.map Prod.fst := by
  induction es with
  | nil => simp [get?]
  | cons e es ih =>
    rw [get?]
    by_cases hk : k = e.1
    · simp [hk]
    · simp [hk, ih]

theorem get?_append {k : String} {es : Entries} (h : es.get? k = none) (v : Value) :
    Entries.get? k (es ++ [(k, v)]) = some v := by
  induction es with
  | nil => simp [get?]
  | cons e es ih =>
    rw [get?] at h
    split at h
    · cases h
    · rename_i hk
      rw [List.cons_append, get?, if_neg hk]
      exact ih h

theorem set_append {k : String} {es : Entries} (h : es.get? k = none) (v w : Value) :
    Entries.set k w (es ++ [(k, v)]) = es ++ [(k, w)] := by
  induction es with
  | nil => simp [set]
  | cons e es ih =>
    rw [get?] at h
    split at h
    · cases h
    · rename_i hk
      rw [List.cons_append, set, if_neg hk, ih h, List.cons_append]

end Entries

/-- The entries of a table. -/
def Writer.Section_.values (s : Section_) : Entries := s.entries.map fun e => (e.1, e.2.toValue)

/-- The table in a file. -/
def Writer.Section_.toEntry (s : Section_) : String × Value := (s.name, .table .header s.values)

theorem add_header {k : String} {es : Entries} (h : es.get? k = none) (path : List String) :
    Draft.add ⟨es, path⟩ (.table [k]) = some ⟨es ++ [(k, .table .header [])], [k]⟩ := by
  simp [Draft.add, Entries.openTable, Entries.change, h]

/-- An entry after a header goes into its table. -/
theorem add_entry {k key : String} {es inner : Entries} (h : es.get? k = none)
    (hkey : inner.get? key = none) (v : Value) :
    Draft.add ⟨es ++ [(k, .table .header inner)], [k]⟩ (.entry [key] v) =
      some ⟨es ++ [(k, .table .header (inner ++ [(key, v)]))], [k]⟩ := by
  simp [Draft.add, Entries.within, Entries.extend, Entries.change, Entries.get?_append h,
    Entries.set_append h, Entries.isOpen, hkey]

theorem add_entries {k : String} {es : Entries} (h : es.get? k = none) :
    ∀ {rest : List (String × Item)} {inner : Entries},
      (inner.map Prod.fst ++ rest.map Prod.fst).Nodup →
      (rest.map entryStatement).foldlM Draft.add ⟨es ++ [(k, .table .header inner)], [k]⟩ =
        some ⟨es ++ [(k, .table .header (inner ++ rest.map fun e => (e.1, e.2.toValue)))], [k]⟩
  | [], inner, _ => by simp
  | e :: rest, inner, hnodup => by
    have hkey : inner.get? e.1 = none := by
      rw [Entries.get?_eq_none]
      intro hmem
      exact (List.nodup_append.1 hnodup).2.2 _ hmem _ (List.mem_map_of_mem List.mem_cons_self) rfl
    have hrest : ((inner ++ [(e.1, e.2.toValue)]).map Prod.fst ++ rest.map Prod.fst).Nodup := by
      simpa using hnodup
    rw [List.map_cons, List.foldlM_cons, entryStatement, add_entry h hkey, Option.bind_eq_bind,
      Option.bind_some, add_entries h hrest]
    simp

/-- **The tables** that the statements of some tables describe. -/
theorem assemble_sections {ss : List Section_} (hnames : (ss.map (·.name)).Nodup)
    (hkeys : ∀ s ∈ ss, (s.entries.map Prod.fst).Nodup) :
    assemble (ss.flatMap Section_.statements) = some (ss.map Section_.toEntry) := by
  have hfold : ∀ (ss : List Section_) (es : Entries) (path : List String),
      (es.map Prod.fst ++ ss.map (·.name)).Nodup → (∀ s ∈ ss, (s.entries.map Prod.fst).Nodup) →
      ((ss.flatMap Section_.statements).foldlM Draft.add ⟨es, path⟩).map (·.entries) =
        some (es ++ ss.map Section_.toEntry) := by
    intro ss
    induction ss with
    | nil =>
      intros
      simp
    | cons s ss ih =>
      intro es path hnodup hkeys
      have hnone : es.get? s.name = none := by
        rw [Entries.get?_eq_none]
        intro hmem
        exact (List.nodup_append.1 hnodup).2.2 _ hmem _ (List.mem_map_of_mem List.mem_cons_self) rfl
      have hrest : ((es ++ [s.toEntry]).map Prod.fst ++ ss.map (·.name)).Nodup := by
        simpa [Section_.toEntry] using hnodup
      rw [List.flatMap_cons, List.foldlM_append, Section_.statements, List.foldlM_cons,
        add_header hnone, Option.bind_eq_bind, Option.bind_some,
        add_entries hnone (by simpa using hkeys s List.mem_cons_self), Option.bind_some]
      have htail := ih (es ++ [s.toEntry]) [s.name] hrest
        fun s' hs' => hkeys s' (List.mem_cons_of_mem _ hs')
      rw [List.nil_append]
      exact htail.trans (by simp)
  simpa [assemble] using hfold ss [] [] (by simpa using hnames) hkeys

/-- The text of some tables has no mark of a byte order. -/
theorem Laid.head?_ne {ss : List Section_} {cs : List Char} (h : Laid ss cs) :
    cs.head? ≠ some '\ufeff' := by
  cases h with
  | nil => exact nofun
  | emptyLine => simp
  | section_ => simp [Section_.write]

/-- Tables that can be read: each can be, and no name and no key of a table is there
    twice. -/
structure Readable (ss : List Section_) : Prop where
  fits : ∀ s ∈ ss, s.Fits
  names : (ss.map (·.name)).Nodup
  keys : ∀ s ∈ ss, (s.entries.map Prod.fst).Nodup

/-- **Tables are read back.** -/
theorem read_laid {ss : List Section_} {text : String} (h : Laid ss text.toList)
    (hss : Readable ss) : read text = some (ss.map Section_.toEntry) := by
  have hstatements : statements text.toList = some (ss.flatMap Section_.statements) := by
    have hfrom := statementsFrom_laid h hss.fits (text.toList.length + 1) (Nat.lt_succ_self _)
    unfold statements
    split
    · rename_i r heq
      exact absurd (by rw [heq]; rfl) h.head?_ne
    · exact hfrom
  rw [read, hstatements, Option.bind_some, assemble_sections hss.names hss.keys]

end Reactor.Toml
