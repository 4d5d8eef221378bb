/-
  Values, written and read.

  * `Item.Fits` says that a number has 63 bits, so that it can be read;
  * `integer_toDigits`: a number is read back, and `numeral_toDigits`: it is taken
    for no time and no float;
  * `valueTo_texts`: a list of texts is read back, whether it has one line or
    many;
  * `value_write`: so is any value.
-/
import Reactor.Proofs.Text.Digits
import Reactor.Proofs.Toml.Quote
import Reactor.Toml.Reader

namespace Reactor.Toml

open Text (Digits digits_toDigits exists_toDigits cons_ne_cons sign_of_isDigit)
open Writer (Item)

/-- A number can be read if it has no more than 63 bits. -/
def Writer.Item.Fits : Item → Prop
  | .nat n => n < Word.count 63
  | _ => True

/-! ## Numbers -/

theorem digitValue?_of_isDigit {c : Char} (h : c.isDigit) :
    digitValue? 10 c = some (c.toNat - 48) := by
  have hlt : c.toNat - 48 < 10 := by
    simp only [Char.isDigit, Bool.and_eq_true, decide_eq_true_iff] at h
    have h57 : c.toNat ≤ 57 := h.2
    omega
  rw [digitValue?, Text.hexValue?, if_pos h, Option.filter_some, if_pos (by simpa using hlt)]

theorem moreDigits_of_digits {cs : List Char} (h : Digits cs) (r : List Char) :
    moreDigits 10 (cs ++ '\n' :: r) = (cs, '\n' :: r) := by
  induction cs with
  | nil => rfl
  | cons c cs ih =>
    have hc : c.isDigit := h c List.mem_cons_self
    rw [List.cons_append, moreDigits, digitValue?_of_isDigit hc,
      ih fun d hd => h d (List.mem_cons_of_mem _ hd)]
    · rfl
    · rintro c' r' rfl
      exact absurd hc (by decide)

theorem valueOf_of_digits {cs : List Char} (h : Digits cs) :
    valueOf 10 cs = Nat.ofDigitChars 10 cs 0 := by
  have hfold : ∀ (cs : List Char) (m : Nat), Digits cs →
      cs.foldl (fun n c => n * 10 + (digitValue? 10 c).getD 0) m = Nat.ofDigitChars 10 cs m := by
    intro cs
    induction cs with
    | nil => intros; rfl
    | cons c cs ih =>
      intro m h
      rw [List.foldl_cons, digitValue?_of_isDigit (h c List.mem_cons_self), Nat.ofDigitChars_cons,
        ih _ fun d hd => h d (List.mem_cons_of_mem _ hd), Nat.mul_comm]
      rfl
  exact hfold cs 0 h

theorem valueOf_toDigits (n : Nat) : valueOf 10 (Nat.toDigits 10 n) = n := by
  rw [valueOf_of_digits (digits_toDigits n), Nat.ofDigitChars_toDigits (by decide) (by decide)]

/-- The digits of a number. -/
theorem whole_toDigits (n : Nat) (r : List Char) :
    whole (Nat.toDigits 10 n ++ '\n' :: r) = some (Nat.toDigits 10 n, '\n' :: r) := by
  obtain ⟨c, cs, hn, hc, hcs, hzero⟩ := exists_toDigits n
  rw [hn, List.cons_append]
  by_cases h0 : c = '0'
  · rw [hzero h0, h0]
    rfl
  · have hdigits : whole (c :: (cs ++ '\n' :: r)) = digits 10 (c :: (cs ++ '\n' :: r)) := by
      unfold whole
      split
      · rename_i heq
        cases heq
        exact absurd rfl h0
      · rfl
    rw [hdigits, digits, digitValue?_of_isDigit hc, moreDigits_of_digits hcs]
    rfl

theorem fitting?_of_lt {n : Nat} (h : n < Word.count 63) : fitting? (n : Int) = some (n : Int) := by
  have hsigned : Word.isSigned (n : Int) := by
    unfold Word.isSigned
    generalize Word.count 63 = bound at h ⊢
    simp only [Bool.and_eq_true, decide_eq_true_iff]
    omega
  rw [fitting?, if_pos hsigned]

/-- **A number is read back.** -/
theorem integer_toDigits {n : Nat} (h : n < Word.count 63) (r : List Char) :
    integer (Nat.toDigits 10 n ++ '\n' :: r) = some ((n : Int), '\n' :: r) := by
  have hwhole := whole_toDigits n r
  have hvalue := valueOf_toDigits n
  obtain ⟨c, cs, hn, hc, hcs, hzero⟩ := exists_toDigits n
  -- a zero stands alone, so it does not begin a number of another base
  have hbase (d : Char) (hd : d ≠ '\n') (r' : List Char) :
      c :: (cs ++ '\n' :: r) ≠ '0' :: d :: r' := by
    intro heq
    obtain ⟨hc0, htail⟩ := List.cons.inj heq
    rw [hzero hc0] at htail
    exact hd (List.cons.inj htail).1.symm
  rw [hn] at hwhole hvalue ⊢
  rw [List.cons_append] at hwhole ⊢
  unfold integer
  split
  · rename_i heq
    exact absurd heq (hbase 'x' (by decide) _)
  · rename_i heq
    exact absurd heq (hbase 'o' (by decide) _)
  · rename_i heq
    exact absurd heq (hbase 'b' (by decide) _)
  · rw [sign_of_isDigit hc]
    dsimp only
    rw [hwhole, Option.bind_eq_bind, Option.bind_some]
    dsimp only
    rw [if_neg (by decide), hvalue, fitting?_of_lt h]
    rfl

/-- A number has no point and no exponent. -/
theorem float_toDigits (n : Nat) (r : List Char) :
    float (Nat.toDigits 10 n ++ '\n' :: r) = none := by
  have hwhole := whole_toDigits n r
  obtain ⟨c, cs, hn, hc, -⟩ := exists_toDigits n
  rw [hn, List.cons_append] at hwhole ⊢
  unfold float
  rw [sign_of_isDigit hc]
  dsimp only
  split
  · rename_i heq
    exact absurd heq (cons_ne_cons hc (by decide))
  · rename_i heq
    exact absurd heq (cons_ne_cons hc (by decide))
  · rw [hwhole]
    rfl

/-- What follows some of the digits of a number is a digit, or the end of the
    line. -/
theorem mark_of_fixedDigits {count m : Nat} {cs r r' : List Char} {c : Char} (h : Digits cs)
    (hd : c.isDigit = false) (hn : c ≠ '\n')
    (hfixed : fixedDigits count (cs ++ '\n' :: r) = some (m, r')) : mark c r' = none := by
  unfold fixedDigits at hfixed
  dsimp only at hfixed
  split at hfixed
  · rename_i hall
    obtain ⟨hlength, hdigits⟩ := hall
    have hle : count ≤ cs.length := by
      by_contra hlt
      have hmem : '\n' ∈ (cs ++ '\n' :: r).take count := by
        rw [List.take_append, List.mem_append]
        refine Or.inr ?_
        obtain ⟨k, hk⟩ := Nat.exists_eq_add_one.2 (show 0 < count - cs.length by omega)
        rw [hk, List.take_succ_cons]
        exact List.mem_cons_self
      exact absurd (List.all_eq_true.1 hdigits _ hmem) (by decide)
    cases hfixed
    rw [List.drop_append_of_le_length hle]
    cases hrest : cs.drop count with
    | nil => exact if_neg hn
    | cons d ds =>
      have hdigit : d.isDigit := h d (List.mem_of_mem_drop (hrest ▸ List.mem_cons_self))
      refine if_neg ?_
      rintro rfl
      rw [hd] at hdigit
      cases hdigit
  · cases hfixed

theorem hourAndMinute_of_digits {cs : List Char} (h : Digits cs) (r : List Char) :
    hourAndMinute (cs ++ '\n' :: r) = none := by
  unfold hourAndMinute
  cases hfixed : fixedDigits 2 (cs ++ '\n' :: r) with
  | none => rfl
  | some p =>
    rw [Option.bind_eq_bind, Option.bind_some]
    dsimp only
    rw [mark_of_fixedDigits h (by decide) (by decide) hfixed]
    rfl

theorem date_of_digits {cs : List Char} (h : Digits cs) (r : List Char) :
    date (cs ++ '\n' :: r) = none := by
  unfold date
  cases hfixed : fixedDigits 4 (cs ++ '\n' :: r) with
  | none => rfl
  | some p =>
    rw [Option.bind_eq_bind, Option.bind_some]
    dsimp only
    rw [mark_of_fixedDigits h (by decide) (by decide) hfixed]
    rfl

/-- A number is no time. -/
theorem moment_of_digits {cs : List Char} (h : Digits cs) (r : List Char) :
    moment (cs ++ '\n' :: r) = none := by
  rw [moment, date_of_digits h, clock, hourAndMinute_of_digits h]
  rfl

/-- **A number is taken for nothing else.** -/
theorem numeral_toDigits {n : Nat} (h : n < Word.count 63) (r : List Char) :
    numeral (Nat.toDigits 10 n ++ '\n' :: r) = some (.int n, '\n' :: r) := by
  rw [numeral, moment_of_digits (digits_toDigits n), float_toDigits, integer_toDigits h]

/-! ## Values -/

/-- What begins with a digit is a number, or a time. -/
theorem valueTo_of_isDigit {c : Char} (h : c.isDigit) (depth : Nat) (cs : List Char) :
    valueTo depth (c :: cs) = numeral (c :: cs) := by
  have hatom : atom (c :: cs) = numeral (c :: cs) := by
    unfold atom
    split
    case h_5 => rfl
    all_goals
      rename_i heq
      exact absurd heq (cons_ne_cons h (by decide))
  have hvalue : valueTo depth (c :: cs) = atom (c :: cs) := by
    unfold valueTo
    split
    · rename_i heq
      exact absurd heq (cons_ne_cons h (by decide))
    · rename_i heq
      exact absurd heq (cons_ne_cons h (by decide))
    · rfl
  rw [hvalue, hatom]

/-- A text begins with a quote. -/
theorem exists_quote (s : String) :
    ∃ q t, Writer.quote s = q :: t ∧ (q = '"' ∨ q = '\'') := by
  unfold Writer.quote
  dsimp only
  cases Writer.styleOf s.toList with
  | basic | basicLines => exact ⟨_, _, rfl, Or.inl rfl⟩
  | literal | literalLines => exact ⟨_, _, rfl, Or.inr rfl⟩

theorem valueTo_quote (depth : Nat) (s : String) {r : List Char} (hdouble : r.head? ≠ some '"')
    (hsingle : r.head? ≠ some '\'') :
    valueTo depth (Writer.quote s ++ r) = some (.text s, r) := by
  have htext := text_quote s hdouble hsingle
  obtain ⟨q, t, hs, hq⟩ := exists_quote s
  have hatom : valueTo depth (q :: (t ++ r)) = atom (q :: (t ++ r)) := by
    rcases hq with rfl | rfl <;> cases depth <;> rfl
  rw [hs, List.cons_append] at htext ⊢
  rw [hatom]
  rcases hq with rfl | rfl <;>
  · rw [atom, htext]
    rfl

/-! ## Lists -/

/-- A line of a list of many lines. -/
def listLine (s : String) : List Char := [' ', ' ', ' ', ' '] ++ Writer.quote s ++ [',', '\n']

/-- What an array goes on with after a text. -/
theorem items_quote (depth fuel : Nat) (acc : List Value) (s : String) {cs r : List Char}
    (hskip : skipSpace (cs.length + 1) cs = Writer.quote s ++ r) (hdouble : r.head? ≠ some '"')
    (hsingle : r.head? ≠ some '\'') : items (valueTo depth) (fuel + 1) acc cs =
      match skipSpace (r.length + 1) r with
      | ',' :: r => items (valueTo depth) fuel (.text s :: acc) r
      | ']' :: r => some (.array (Value.text s :: acc).reverse, r)
      | _ => none := by
  have hvalue := valueTo_quote depth s hdouble hsingle
  obtain ⟨q, t, hs, hq⟩ := exists_quote s
  rw [hs, List.cons_append] at hskip hvalue
  rw [items, hskip]
  split
  · rename_i heq
    rcases hq with rfl | rfl <;> cases heq
  · rw [hvalue]
    rfl

theorem skipSpace_listLine (fuel : Nat) (s : String) (r : List Char) :
    skipSpace (fuel + 2) ('\n' :: (listLine s ++ r)) = Writer.quote s ++ (',' :: '\n' :: r) := by
  obtain ⟨q, t, hs, hq⟩ := exists_quote s
  rw [listLine, hs]
  simp only [List.append_assoc, List.cons_append, List.nil_append]
  rcases hq with rfl | rfl <;> rfl

/-- The lines of a list. -/
theorem items_lines (depth : Nat) (r : List Char) : ∀ (ss : List String) (fuel : Nat)
    (acc : List Value), ss.length < fuel →
      items (valueTo depth) fuel acc ('\n' :: (ss.flatMap listLine ++ ']' :: r)) =
        some (.array (acc.reverse ++ ss.map .text), r)
  | [], fuel, acc, hfuel => by
    obtain ⟨fuel, rfl⟩ := Nat.exists_eq_add_one.2 hfuel
    rw [List.map_nil, List.append_nil]
    rfl
  | s :: ss, fuel, acc, hfuel => by
    obtain ⟨fuel, rfl⟩ := Nat.exists_eq_add_one.2 (Nat.zero_lt_of_lt hfuel)
    have hskip : skipSpace (('\n' :: ((s :: ss).flatMap listLine ++ ']' :: r)).length + 1)
        ('\n' :: ((s :: ss).flatMap listLine ++ ']' :: r)) =
          Writer.quote s ++ (',' :: '\n' :: (ss.flatMap listLine ++ ']' :: r)) := by
      rw [List.flatMap_cons, List.append_assoc, List.length_cons]
      exact skipSpace_listLine _ s _
    rw [items_quote depth fuel acc s hskip (by simp) (by simp)]
    show items (valueTo depth) fuel _ _ = _
    rw [items_lines depth r ss fuel _ (Nat.lt_of_succ_lt_succ hfuel)]
    simp

theorem length_le_lines (ss : List String) : ss.length ≤ (ss.flatMap listLine).length := by
  induction ss with
  | nil => exact Nat.le_refl _
  | cons s ss ih =>
    rw [List.flatMap_cons, List.length_append, List.length_cons, listLine]
    simp only [List.length_append, List.length_cons]
    omega

/-- **A list is read back.** -/
theorem valueTo_texts (depth : Nat) (ss : List String) (r : List Char) :
    valueTo (depth + 1) (Writer.texts ss ++ r) = some (.array (ss.map .text), r) := by
  match ss with
  | [] => rfl
  | [s] =>
    have hskip : skipSpace ((Writer.quote s ++ ']' :: r).length + 1) (Writer.quote s ++ ']' :: r) =
        Writer.quote s ++ ']' :: r := by
      obtain ⟨q, t, hs, hq⟩ := exists_quote s
      rw [hs]
      rcases hq with rfl | rfl <;> rfl
    have hitems := items_quote depth (Writer.quote s ++ ']' :: r).length [] s hskip (by simp)
      (by simp)
    rw [Writer.texts]
    simp only [List.cons_append, List.append_assoc, List.nil_append]
    exact hitems
  | s :: s' :: ss =>
    have hlength := length_le_lines (s :: s' :: ss)
    have hfuel : (s :: s' :: ss).length <
        ('\n' :: ((s :: s' :: ss).flatMap listLine ++ ']' :: r)).length + 1 := by
      rw [List.length_cons (a := '\n'), List.length_append]
      omega
    have htexts : Writer.texts (s :: s' :: ss) =
        '[' :: '\n' :: ((s :: s' :: ss).flatMap listLine ++ [']']) := rfl
    have hitems := items_lines depth r (s :: s' :: ss) _ [] hfuel
    rw [htexts, List.cons_append, List.cons_append, List.append_assoc]
    exact hitems

/-- **A value is read back.** -/
theorem value_write {i : Item} (h : i.Fits) (r : List Char) :
    value (i.write ++ '\n' :: r) = some (i.toValue, '\n' :: r) := by
  cases i with
  | text s => exact valueTo_quote _ s (by simp) (by simp)
  | nat n =>
    have hnumeral := numeral_toDigits h r
    obtain ⟨c, cs, hn, hc, -⟩ := exists_toDigits n
    rw [Item.write]
    rw [hn] at hnumeral ⊢
    exact (valueTo_of_isDigit hc _ _).trans hnumeral
  | bool b => cases b <;> rfl
  | texts ss => exact valueTo_texts _ ss _

end Reactor.Toml
