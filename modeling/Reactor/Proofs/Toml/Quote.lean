/-
  Texts in quotes, written and read.

  A text is written in one of four forms.  What they have in common is that each
  character stands as it is or as an escape, and that the quotes of the form
  stand as they are only in runs that cannot be taken for its end.

  * `Escapes` says that an escape stands for a character, `Written` that a text
    between quotes does for some characters;
  * `Written.short` and `Written.long`: such a text is read back;
  * `text_quote`: whatever form a text is written in, it is read back.
-/
import Mathlib.Tactic.SplitIfs
import Reactor.Toml.Quote
import Reactor.Toml.Writer

namespace Reactor.Toml

open Writer (isHidden escaped)

/-! ## Characters -/

theorem isVisible_of_not_hidden {c : Char} (h : isHidden c = false) (hn : c ≠ '\n') :
    isVisible c := by
  simp only [isHidden, Bool.or_eq_false_iff, Bool.and_eq_false_iff, decide_eq_false_iff_not,
    beq_eq_false_iff_ne, bne_eq_false_iff_eq] at h
  simp only [isVisible, Bool.or_eq_true, Bool.and_eq_true, beq_iff_eq, decide_eq_true_iff,
    bne_iff_ne]
  rcases h with ⟨(h | h) | h, h'⟩
  · exact Or.inr ⟨Nat.le_of_not_lt h, h'⟩
  · exact Or.inl h
  · exact absurd h hn

/-- The end of a line is not visible. -/
theorem newline?_of_visible {c : Char} (h : isVisible c) (r : List Char) :
    newline? (c :: r) = none := by
  unfold newline?
  split
  · rename_i heq
    cases heq
    exact absurd h (by decide)
  · rename_i heq
    cases heq
    exact absurd h (by decide)
  · rfl

theorem hexValue?_upperDigit : ∀ n < 16, Text.hexValue? (Writer.upperDigit n) = some n := by decide

/-- What follows a backslash stands for a character. -/
structure Escapes (c : Char) (e : List Char) : Prop where
  reads : ∀ r, Quote.escape (e ++ r) = some (c, r)
  joins : ∀ r, Quote.joined? (e ++ r) = none

theorem escapes_quote : Escapes '"' ['"'] := ⟨fun _ => rfl, fun _ => rfl⟩

theorem escapes_hidden {c : Char} (h : isHidden c) : Escapes c
    ['u', '0', '0', Writer.upperDigit (c.toNat / 16), Writer.upperDigit (c.toNat % 16)] := by
  have hlt : c.toNat < 128 := by
    simp only [isHidden, Bool.or_eq_true, Bool.and_eq_true, decide_eq_true_iff, beq_iff_eq] at h
    omega
  have h0 : Text.hexValue? '0' = some 0 := by decide
  have hvalue : ((0 * 16 + 0) * 16 + c.toNat / 16) * 16 + c.toNat % 16 = c.toNat := by omega
  have hvalid : c.toNat.isValidChar := c.valid
  refine ⟨fun r => ?_, fun r => rfl⟩
  have hnumber : Quote.hexNumber 4 0 (['0', '0', Writer.upperDigit (c.toNat / 16),
      Writer.upperDigit (c.toNat % 16)] ++ r) = some (c.toNat, r) := by
    simp only [Quote.hexNumber, List.cons_append, List.nil_append, h0,
      hexValue?_upperDigit (c.toNat / 16) (by omega),
      hexValue?_upperDigit (c.toNat % 16) (by omega), hvalue]
  rw [List.cons_append, Quote.escape, Quote.numbered, hnumber]
  simp only [hvalid, if_true, Char.ofNat_toNat]

/-- A character between double quotes stands as an escape, as the end of a line, or
    as it is. -/
theorem escaped_cases (oneLine : Bool) (c : Char) :
    (∃ e, escaped oneLine c = '\\' :: e ∧ Escapes c e) ∨
      (oneLine = false ∧ c = '\n' ∧ escaped oneLine c = ['\n']) ∨
      (c ≠ '\\' ∧ isVisible c ∧ escaped oneLine c = [c]) := by
  unfold escaped
  split_ifs with h1 h2 h3 h4 h5 h6 h7 h8
  · exact Or.inl ⟨_, rfl, by rw [h1]; exact ⟨fun r => rfl, fun r => rfl⟩⟩
  · exact Or.inl ⟨_, rfl, by rw [h2]; exact ⟨fun r => rfl, fun r => rfl⟩⟩
  · exact Or.inl ⟨_, rfl, by rw [h3]; exact ⟨fun r => rfl, fun r => rfl⟩⟩
  · exact Or.inr (Or.inl ⟨by simpa using h4, h3, rfl⟩)
  · exact Or.inl ⟨_, rfl, by rw [h5]; exact ⟨fun r => rfl, fun r => rfl⟩⟩
  · exact Or.inl ⟨_, rfl, by rw [h6]; exact ⟨fun r => rfl, fun r => rfl⟩⟩
  · exact Or.inl ⟨_, rfl, by rw [h7]; exact ⟨fun r => rfl, fun r => rfl⟩⟩
  · exact Or.inl ⟨_, rfl, escapes_hidden h8⟩
  · exact Or.inr (Or.inr ⟨h7, isVisible_of_not_hidden (Bool.eq_false_iff.2 h8) h3, rfl⟩)

/-! ## What stands between quotes -/

/-- Some characters, and how they are written between quotes, of one or of many
    lines.  In many lines up to two quotes stand as they are; `run` of them stand
    before. -/
inductive Written (q : Char) (many : Bool) : Nat → List Char → List Char → Prop
  | nil {run : Nat} : Written q many run [] []
  | quote {run : Nat} {cs t : List Char} :
      many → run < 2 → Written q many (run + 1) cs t → Written q many run (q :: cs) (q :: t)
  | newline {run : Nat} {cs t : List Char} :
      many → Written q many 0 cs t → Written q many run ('\n' :: cs) ('\n' :: t)
  | plain {run : Nat} {c : Char} {cs t : List Char} :
      c ≠ q → ¬ (c = '\\' ∧ q = '"') → isVisible c → Written q many 0 cs t →
        Written q many run (c :: cs) (c :: t)
  | escape {run : Nat} {c : Char} {e cs t : List Char} :
      q = '"' → Escapes c e → Written q many 0 cs t →
        Written q many run (c :: cs) ('\\' :: (e ++ t))

namespace Written

variable {q : Char} {many : Bool} {run : Nat} {cs t : List Char}

theorem length_le (h : Written q many run cs t) : cs.length ≤ t.length := by
  induction h with
  | nil => exact Nat.le_refl _
  | quote _ _ _ ih => exact Nat.succ_le_succ ih
  | newline _ _ ih => exact Nat.succ_le_succ ih
  | plain _ _ _ _ ih => exact Nat.succ_le_succ ih
  | escape _ _ _ ih =>
    rw [List.length_cons, List.length_cons, List.length_append]
    omega

/-! ## Reading -/

/-- **A text of one line is read back.** -/
theorem short (h : Written q false run cs t) (r : List Char) :
    ∀ (fuel : Nat) (acc : List Char), cs.length < fuel →
      Quote.short q fuel acc (t ++ q :: r) = some (String.ofList (acc.reverse ++ cs), r) := by
  induction h with
  | nil =>
    intro fuel acc hfuel
    obtain ⟨fuel, rfl⟩ := Nat.exists_eq_add_one.2 hfuel
    simp [Quote.short]
  | quote hmany => cases hmany
  | newline hmany => cases hmany
  | @plain _ c _ _ hq hback hvisible _ ih =>
    intro fuel acc hfuel
    obtain ⟨fuel, rfl⟩ := Nat.exists_eq_add_one.2 (Nat.zero_lt_of_lt hfuel)
    rw [List.cons_append, Quote.short, if_neg hq, if_neg hback, if_pos hvisible,
      ih fuel _ (Nat.lt_of_succ_lt_succ hfuel)]
    simp
  | escape hq he _ ih =>
    intro fuel acc hfuel
    obtain ⟨fuel, rfl⟩ := Nat.exists_eq_add_one.2 (Nat.zero_lt_of_lt hfuel)
    subst hq
    rw [List.cons_append, List.append_assoc, Quote.short, if_neg (by decide), if_pos (by decide),
      he.reads]
    dsimp only
    rw [ih fuel _ (Nat.lt_of_succ_lt_succ hfuel)]
    simp

/-- The quotes that stand at the front of what follows: if there is nothing but
    quotes, those with the three that close the text; if there is more, too few to
    close it. -/
theorem leading (hq : q = '"' ∨ q = '\'') (h : Written q true run cs t) (hrun : run ≤ 2)
    {r : List Char} (hr : r.head? ≠ some q) :
    (∃ n, n + run ≤ 2 ∧ cs = List.replicate n q ∧ t = List.replicate n q) ∨
      ((t ++ q :: q :: q :: r).takeWhile (· = q)).length + run ≤ 2 := by
  induction h with
  | nil => exact Or.inl ⟨0, by omega, rfl, rfl⟩
  | @quote run cs t _ hlt _ ih =>
    rcases ih (by omega) with ⟨n, hn, rfl, rfl⟩ | hfew
    · exact Or.inl ⟨n + 1, by omega, rfl, rfl⟩
    · refine Or.inr ?_
      rw [List.cons_append, List.takeWhile_cons_of_pos (by simp), List.length_cons]
      omega
  | newline =>
    refine Or.inr ?_
    rw [List.cons_append, List.takeWhile_cons_of_neg (by rcases hq with rfl | rfl <;> decide)]
    simpa using hrun
  | plain hne =>
    refine Or.inr ?_
    rw [List.cons_append, List.takeWhile_cons_of_neg (by simpa using hne)]
    simpa using hrun
  | escape =>
    refine Or.inr ?_
    rw [List.cons_append, List.takeWhile_cons_of_neg (by rcases hq with rfl | rfl <;> decide)]
    simpa using hrun

/-- The quotes that close a text, with those of the text that stand before. -/
theorem long_close (q : Char) {n : Nat} (hn : n ≤ 2) {r : List Char} (hr : r.head? ≠ some q)
    (fuel : Nat) (acc : List Char) :
    Quote.long q (fuel + 1) acc (List.replicate (n + 3) q ++ r) =
      some (String.ofList (acc.reverse ++ List.replicate n q), r) := by
  have htake : ((List.replicate (n + 2) q ++ r).takeWhile (· = q)).length = n + 2 := by
    rw [List.takeWhile_append_of_pos (by simp)]
    cases r with
    | nil => simp
    | cons c r =>
      have hne : c ≠ q := fun h => hr (by rw [h]; rfl)
      simp [hne]
  rw [List.replicate_succ, List.cons_append, Quote.long, if_pos rfl]
  simp only [htake]
  rw [if_neg (by omega), if_pos (by omega)]
  simp

/-- **A text of many lines is read back.** -/
theorem long (hq : q = '"' ∨ q = '\'') (h : Written q true run cs t) (hrun : run ≤ 2)
    {r : List Char} (hr : r.head? ≠ some q) : ∀ (fuel : Nat) (acc : List Char), cs.length < fuel →
      Quote.long q fuel acc (t ++ q :: q :: q :: r) =
        some (String.ofList (acc.reverse ++ cs), r) := by
  induction h with
  | nil =>
    intro fuel acc hfuel
    obtain ⟨fuel, rfl⟩ := Nat.exists_eq_add_one.2 hfuel
    simpa using long_close q (Nat.zero_le 2) hr fuel acc
  | @quote run cs t hmany hlt h ih =>
    intro fuel acc hfuel
    obtain ⟨fuel, rfl⟩ := Nat.exists_eq_add_one.2 (Nat.zero_lt_of_lt hfuel)
    rcases h.leading hq (by omega) hr with ⟨n, hn, rfl, rfl⟩ | hfew
    · have hclose := long_close q (show n + 1 ≤ 2 by omega) hr fuel acc
      rcases (show n = 0 ∨ n = 1 by omega) with rfl | rfl <;> exact hclose
    · rw [List.cons_append, Quote.long, if_pos rfl]
      dsimp only
      rw [if_pos (by omega), ih (by omega) fuel _ (Nat.lt_of_succ_lt_succ hfuel)]
      simp
  | newline hmany _ ih =>
    intro fuel acc hfuel
    obtain ⟨fuel, rfl⟩ := Nat.exists_eq_add_one.2 (Nat.zero_lt_of_lt hfuel)
    rw [List.cons_append, Quote.long, if_neg (by rcases hq with rfl | rfl <;> decide),
      if_neg (fun h => absurd h.1 (by decide))]
    have hline (r : List Char) : newline? ('\n' :: r) = some r := rfl
    rw [hline]
    dsimp only
    rw [ih (by omega) fuel _ (Nat.lt_of_succ_lt_succ hfuel), List.reverse_cons, List.append_assoc]
    rfl
  | plain hne hback hvisible _ ih =>
    intro fuel acc hfuel
    obtain ⟨fuel, rfl⟩ := Nat.exists_eq_add_one.2 (Nat.zero_lt_of_lt hfuel)
    rw [List.cons_append, Quote.long, if_neg hne, if_neg hback, newline?_of_visible hvisible]
    dsimp only
    rw [if_pos hvisible, ih (by omega) fuel _ (Nat.lt_of_succ_lt_succ hfuel)]
    simp
  | escape hdouble he _ ih =>
    intro fuel acc hfuel
    obtain ⟨fuel, rfl⟩ := Nat.exists_eq_add_one.2 (Nat.zero_lt_of_lt hfuel)
    subst hdouble
    rw [List.cons_append, List.append_assoc, Quote.long, if_neg (by decide), if_pos (by decide),
      he.reads, he.joins]
    dsimp only
    rw [ih (by omega) fuel _ (Nat.lt_of_succ_lt_succ hfuel)]
    simp

/-- What is written for a text without ends of lines does not begin with one. -/
theorem newline?_eq_none (hq : q = '"' ∨ q = '\'') (h : Written q many run cs t) (hn : '\n' ∉ cs)
    (r : List Char) : newline? (t ++ q :: r) = none := by
  have hquote (r : List Char) : newline? (q :: r) = none := by rcases hq with rfl | rfl <;> rfl
  cases h with
  | nil => exact hquote r
  | quote => exact hquote _
  | newline => exact absurd List.mem_cons_self hn
  | plain _ _ hvisible => exact newline?_of_visible hvisible _
  | escape => rfl

/-- What is written for a text of one line does not begin with a quote. -/
theorem head?_ne (h : Written q false run cs t) (hq : q = '"' ∨ q = '\'') : t.head? ≠ some q := by
  cases h with
  | nil => exact nofun
  | quote hmany => cases hmany
  | newline hmany => cases hmany
  | plain hne => simpa using hne
  | escape => rcases hq with rfl | rfl <;> simp

end Written

/-! ## Writing -/

/-- How often a quote may stand in a row, when so many stand before. -/
def Runs (q : Char) (most : Nat) : Nat → List Char → Prop
  | _, [] => True
  | run, c :: r => if c = q then run < most ∧ Runs q most (run + 1) r else Runs q most 0 r

/-- A run is as long as the longest at most. -/
theorem runs_of_foldl {q : Char} {most : Nat} {step : Nat × Nat → Char → Nat × Nat}
    (hstep : step = fun (best, run) d =>
      if d = q then (max best (run + 1), run + 1) else (best, 0)) :
    ∀ {cs : List Char} {best run : Nat}, (cs.foldl step (best, run)).1 ≤ most →
      best ≤ most ∧ Runs q most run cs
  | [], best, run, h => ⟨h, trivial⟩
  | c :: cs, best, run, h => by
    subst hstep
    rw [List.foldl_cons] at h
    rw [Runs]
    by_cases hc : c = q
    · simp only [hc, if_true] at h ⊢
      obtain ⟨hbest, hruns⟩ := runs_of_foldl rfl h
      exact ⟨by omega, by omega, hruns⟩
    · simp only [hc, if_false] at h ⊢
      exact runs_of_foldl rfl h

theorem runs_of_longestRun {q : Char} {most : Nat} {cs : List Char}
    (h : Writer.longestRun q cs ≤ most) : Runs q most 0 cs :=
  (runs_of_foldl rfl h).2

/-- A text between double quotes. -/
theorem written_escape (oneLine : Bool) : ∀ (cs : List Char) (run : Nat),
    Written '"' (!oneLine) run cs (Writer.escape oneLine run cs)
  | [], _ => .nil
  | c :: cs, run => by
    rw [Writer.escape]
    by_cases hc : c = '"'
    · subst hc
      rw [if_pos rfl]
      by_cases hrun : run < if oneLine then 0 else 2
      · rw [if_pos hrun]
        cases oneLine with
        | true => exact absurd hrun (Nat.not_lt_zero _)
        | false => exact .quote rfl hrun (written_escape false cs _)
      · rw [if_neg hrun]
        exact .escape rfl escapes_quote (written_escape oneLine cs 0)
    · rw [if_neg hc]
      rcases escaped_cases oneLine c with
        ⟨e, he, hescapes⟩ | ⟨hone, rfl, he⟩ | ⟨hback, hvisible, he⟩
      · rw [he]
        exact .escape rfl hescapes (written_escape oneLine cs 0)
      · rw [he]
        exact .newline (by rw [hone]; rfl) (written_escape oneLine cs 0)
      · rw [he]
        exact .plain hc (fun h => hback h.1) hvisible (written_escape oneLine cs 0)

/-- A text between single quotes. -/
theorem written_literal {many : Bool} : ∀ {cs : List Char} {run : Nat},
    Runs '\'' (if many then 2 else 0) run cs → cs.any isHidden = false →
      (many = false → '\n' ∉ cs) → Written '\'' many run cs cs
  | [], _, _, _, _ => .nil
  | c :: cs, run, hruns, hhidden, hlines => by
    rw [List.any_cons, Bool.or_eq_false_iff] at hhidden
    rw [Runs] at hruns
    have hlines' : many = false → '\n' ∉ cs := fun h hmem => hlines h (List.mem_cons_of_mem _ hmem)
    by_cases hc : c = '\''
    · subst hc
      rw [if_pos rfl] at hruns
      cases many with
      | true => exact .quote rfl hruns.1 (written_literal hruns.2 hhidden.2 hlines')
      | false => exact absurd hruns.1 (Nat.not_lt_zero _)
    · rw [if_neg hc] at hruns
      have htail := written_literal hruns hhidden.2 hlines'
      by_cases hn : c = '\n'
      · subst hn
        cases many with
        | true => exact .newline rfl htail
        | false => exact absurd List.mem_cons_self (hlines rfl)
      · exact .plain hc (fun h => absurd h.2 (by decide)) (isVisible_of_not_hidden hhidden.1 hn)
          htail

/-! ## Any form -/

/-- What does not begin with three quotes is a text of one line. -/
theorem text_eq_line {cs : List Char} (hdouble : ∀ r, cs ≠ '"' :: '"' :: '"' :: r)
    (hsingle : ∀ r, cs ≠ '\'' :: '\'' :: '\'' :: r) : Quote.text cs = Quote.line cs := by
  unfold Quote.text
  split
  · exact absurd rfl (hdouble _)
  · exact absurd rfl (hsingle _)
  · rfl

/-- A text of one line in its quotes. -/
theorem text_short {q : Char} (hq : q = '"' ∨ q = '\'') {cs t : List Char}
    (h : Written q false 0 cs t) {r : List Char} (hr : r.head? ≠ some q) :
    Quote.text (q :: (t ++ q :: r)) = some (String.ofList cs, r) := by
  have hopen (r' : List Char) : t ++ q :: r ≠ q :: q :: r' := by
    have hhead := h.head?_ne hq
    cases t with
    | nil =>
      intro heq
      exact hr (by rw [(List.cons.inj heq).2]; rfl)
    | cons c t =>
      intro heq
      exact hhead (by rw [(List.cons.inj heq).1]; rfl)
  have hline : Quote.text (q :: (t ++ q :: r)) = Quote.line (q :: (t ++ q :: r)) := by
    rcases hq with rfl | rfl
    · exact text_eq_line (fun r' heq => hopen r' (List.cons.inj heq).2) nofun
    · exact text_eq_line nofun fun r' heq => hopen r' (List.cons.inj heq).2
  have hlength : cs.length < (t ++ q :: r).length + 1 := by
    have := h.length_le
    rw [List.length_append]
    omega
  rw [hline]
  rcases hq with rfl | rfl <;>
  · rw [Quote.line, h.short r _ [] hlength]
    rfl

/-- A text of many lines in its quotes. -/
theorem text_long {q : Char} (hq : q = '"' ∨ q = '\'') {cs t : List Char}
    (h : Written q true 0 cs t) {r : List Char} (hr : r.head? ≠ some q) :
    Quote.text ([q, q, q] ++ Writer.firstNewline cs ++ t ++ [q, q, q] ++ r) =
      some (String.ofList cs, r) := by
  have hlines : Quote.text ([q, q, q] ++ Writer.firstNewline cs ++ t ++ [q, q, q] ++ r) =
      Quote.lines q (Writer.firstNewline cs ++ (t ++ q :: q :: q :: r)) := by
    rcases hq with rfl | rfl <;> simp [Quote.text]
  have hstart : (newline? (Writer.firstNewline cs ++ (t ++ q :: q :: q :: r))).getD
      (Writer.firstNewline cs ++ (t ++ q :: q :: q :: r)) = t ++ q :: q :: q :: r := by
    unfold Writer.firstNewline
    split
    · rfl
    · rename_i hn
      rw [List.nil_append, h.newline?_eq_none hq (by simpa using hn)]
      rfl
  have hlength : cs.length < (Writer.firstNewline cs ++ (t ++ q :: q :: q :: r)).length + 1 := by
    have := h.length_le
    rw [List.length_append, List.length_append]
    omega
  rw [hlines, Quote.lines, hstart, h.long hq (Nat.zero_le _) hr _ [] hlength]
  rfl

theorem styleOf_eq_literal {cs : List Char} (h : Writer.styleOf cs = .literal) :
    cs.any isHidden = false ∧ '\n' ∉ cs ∧ Writer.longestRun '\'' cs = 0 := by
  unfold Writer.styleOf at h
  dsimp only at h
  split_ifs at h with h1 h2
  simpa [and_assoc] using h2

theorem styleOf_eq_literalLines {cs : List Char} (h : Writer.styleOf cs = .literalLines) :
    cs.any isHidden = false ∧ Writer.longestRun '\'' cs ≤ 2 := by
  unfold Writer.styleOf at h
  dsimp only at h
  split_ifs at h with h1 h2 h3 h4
  simpa using h4

/-- **A text is read back**, in whatever form it is written. -/
theorem text_quote (s : String) {r : List Char} (hdouble : r.head? ≠ some '"')
    (hsingle : r.head? ≠ some '\'') : Quote.text (Writer.quote s ++ r) = some (s, r) := by
  have hs : String.ofList s.toList = s := String.ofList_toList
  unfold Writer.quote
  dsimp only
  cases hstyle : Writer.styleOf s.toList with
  | basic =>
    have h := text_short (Or.inl rfl) (written_escape true s.toList 0) hdouble
    simpa [hs] using h
  | literal =>
    obtain ⟨hhidden, hline, hruns⟩ := styleOf_eq_literal hstyle
    have hwritten : Written '\'' false 0 s.toList s.toList :=
      written_literal (runs_of_longestRun (Nat.le_of_eq hruns)) hhidden fun _ => hline
    have h := text_short (Or.inr rfl) hwritten hsingle
    simpa [hs] using h
  | basicLines =>
    have h := text_long (Or.inl rfl) (written_escape false s.toList 0) hdouble
    rwa [hs] at h
  | literalLines =>
    obtain ⟨hhidden, hruns⟩ := styleOf_eq_literalLines hstyle
    have hwritten : Written '\'' true 0 s.toList s.toList :=
      written_literal (runs_of_longestRun hruns) hhidden nofun
    have h := text_long (Or.inr rfl) hwritten hsingle
    rwa [hs] at h

end Reactor.Toml
