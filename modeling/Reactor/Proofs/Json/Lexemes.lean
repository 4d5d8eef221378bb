/-
  Lexemes of JSON, with blanks between them.

  * `Spaced`: a text is some lexemes with any blanks around them;
  * `Inner` is the inner text of a string, with any escapes, and `Denotes` what it
    stands for; `string_denotes`: that is what is read; `string_inner`: a string that
    is read is all that is there, and stands for what was read.
-/
import Reactor.Proofs.Except
import Reactor.Json.Reader

namespace Reactor.Json

open Reader Text

/-! ## Blanks -/

/-- A text of nothing but blanks. -/
def Blank (cs : List Char) : Prop := ∀ c ∈ cs, isBlank c = true

/-- A text of lexemes, none of which begins with a blank, with any blanks around
    them. -/
inductive Spaced : List (List Char) → List Char → Prop
  | nil {b : List Char} : Blank b → Spaced [] b
  | cons {b t r : List Char} {c : Char} {ts : List (List Char)} : Blank b → isBlank c = false →
      Spaced ts r → Spaced ((c :: t) :: ts) (b ++ c :: (t ++ r))

variable {b t cs ds r r' : List Char} {c : Char} {ts : List (List Char)}

theorem skipBlanks_append (hb : Blank b) (cs : List Char) : skipBlanks (b ++ cs) = skipBlanks cs :=
  List.dropWhile_append_of_pos hb

theorem skipBlanks_of_not_blank (hc : isBlank c = false) (cs : List Char) :
    skipBlanks (c :: cs) = c :: cs :=
  List.dropWhile_cons_of_neg (by rw [hc]; exact Bool.false_ne_true)

theorem Spaced.end (h : Spaced [] cs) : skipBlanks cs = [] := by
  cases h with
  | nil hb => exact (List.append_nil cs ▸ skipBlanks_append hb [] : skipBlanks cs = [])

/-- Behind the blanks stands the first lexeme. -/
theorem Spaced.lexeme (h : Spaced ((c :: t) :: ts) cs) :
    ∃ r, skipBlanks cs = c :: (t ++ r) ∧ Spaced ts r := by
  cases h with
  | cons hb hc hr => exact ⟨_, by rw [skipBlanks_append hb, skipBlanks_of_not_blank hc], hr⟩

theorem Spaced.skipBlanks (h : Spaced ts cs) : Spaced ts (skipBlanks cs) := by
  cases h with
  | nil hb =>
    rw [(Spaced.nil hb).end]
    exact .nil nofun
  | @cons _ t _ c _ hb hc hr =>
    rw [skipBlanks_append hb, skipBlanks_of_not_blank hc]
    exact @Spaced.cons [] t _ c _ nofun hc hr

/-- Lexemes without blanks. -/
theorem spaced_flatten (h : ∀ t ∈ ts, ∃ c t', t = c :: t' ∧ isBlank c = false) :
    Spaced ts ts.flatten := by
  induction ts with
  | nil => exact .nil nofun
  | cons t ts ih =>
    obtain ⟨c, t', rfl, hc⟩ := h t List.mem_cons_self
    exact @Spaced.cons [] t' _ c _ nofun hc (ih fun t ht => h t (List.mem_cons_of_mem _ ht))

/-- No lexeme is empty. -/
theorem Spaced.length_le (h : Spaced ts cs) : ts.length ≤ cs.length := by
  induction h with
  | nil => exact Nat.zero_le _
  | cons _ _ _ ih =>
    simp only [List.length_cons, List.length_append]
    omega

/-! ## Strings -/

/-- Four hexadecimal digits, and their number. -/
inductive Hex : List Char → Nat → Prop
  | mk {a b c d : Char} {w x y z : Nat} : hexValue? a = some w → hexValue? b = some x →
      hexValue? c = some y → hexValue? d = some z →
      Hex [a, b, c, d] (((w * 16 + x) * 16 + y) * 16 + z)

/-- The inner text of a string; halves of pairs may stand alone. -/
inductive Inner : List Char → Prop
  | nil : Inner []
  | plain {c : Char} {cs : List Char} : c ≠ '"' → c ≠ '\\' → 32 ≤ c.toNat → Inner cs →
      Inner (c :: cs)
  | simple {c d : Char} {cs : List Char} : simpleEscape? c = some d → Inner cs →
      Inner ('\\' :: c :: cs)
  | unicode {q cs : List Char} {n : Nat} : Hex q n → Inner cs → Inner ('\\' :: 'u' :: (q ++ cs))

/-- What the inner text of a string stands for. -/
inductive Denotes : List Char → List Char → Prop
  | nil : Denotes [] []
  | plain {c : Char} {cs ds : List Char} : c ≠ '"' → c ≠ '\\' → 32 ≤ c.toNat → Denotes cs ds →
      Denotes (c :: cs) (c :: ds)
  | simple {c d : Char} {cs ds : List Char} : simpleEscape? c = some d → Denotes cs ds →
      Denotes ('\\' :: c :: cs) (d :: ds)
  | unicode {q cs ds : List Char} {n : Nat} : Hex q n → ¬(0xD800 ≤ n ∧ n ≤ 0xDFFF) →
      Denotes cs ds → Denotes ('\\' :: 'u' :: (q ++ cs)) (Char.ofNat n :: ds)
  | pair {q q' cs ds : List Char} {m n : Nat} : Hex q m → 0xD800 ≤ m ∧ m ≤ 0xDBFF → Hex q' n →
      0xDC00 ≤ n ∧ n ≤ 0xDFFF → Denotes cs ds →
      Denotes ('\\' :: 'u' :: (q ++ '\\' :: 'u' :: (q' ++ cs)))
        (Char.ofNat (0x10000 + (m - 0xD800) * 0x400 + (n - 0xDC00)) :: ds)

theorem Denotes.inner (h : Denotes cs ds) : Inner cs := by
  induction h with
  | nil => exact .nil
  | plain hq hb hc _ ih => exact .plain hq hb hc ih
  | simple hd _ ih => exact .simple hd ih
  | unicode hn _ _ ih => exact .unicode hn ih
  | pair hm _ hn _ _ ih => exact .unicode hm (.unicode hn ih)

variable {q : List Char} {n fuel : Nat} {acc : List Char} {d : Char}

theorem Hex.hex4_eq (h : Hex q n) (r : List Char) : hex4 (q ++ r) = .ok (n, r) := by
  cases h with
  | mk ha hb hc hd =>
    show hex4 (_ :: _ :: _ :: _ :: r) = _
    rw [hex4]
    simp only [ha, hb, hc, hd]

theorem ne_u_of_simpleEscape? (h : simpleEscape? c = some d) : c ≠ 'u' := by
  rintro rfl
  cases h

attribute [local simp] stringFrom

theorem stringFrom_plain (hq : c ≠ '"') (hb : c ≠ '\\') (hc : 32 ≤ c.toNat) (fuel : Nat)
    (acc r : List Char) : stringFrom (fuel + 1) acc (c :: r) = stringFrom fuel (c :: acc) r := by
  simp [hq, hb, Nat.not_lt.2 hc]

theorem stringFrom_simple (h : simpleEscape? c = some d) (fuel : Nat) (acc r : List Char) :
    stringFrom (fuel + 1) acc ('\\' :: c :: r) = stringFrom fuel (d :: acc) r := by
  have hu := ne_u_of_simpleEscape? h
  simp only [stringFrom, h]
  rfl

theorem stringFrom_unicode (h : unicodeEscape r = .ok (d, r')) (fuel : Nat) (acc : List Char) :
    stringFrom (fuel + 1) acc ('\\' :: 'u' :: r) = stringFrom fuel (d :: acc) r' := by
  simp only [stringFrom, h]
  rfl

/-- The escape of a character ends where its digits do, or with the second half of a
    pair; it stands for the character that is read. -/
theorem unicodeEscape_inner (hn : Hex q n) (hcs : Inner cs)
    (h : unicodeEscape (q ++ (cs ++ '"' :: r)) = .ok (c, r')) :
    ∃ cs', Inner cs' ∧ r' = cs' ++ '"' :: r ∧
      ∀ ds, Denotes cs' ds → Denotes ('\\' :: 'u' :: (q ++ cs)) (c :: ds) := by
  rw [unicodeEscape, hn.hex4_eq, Except.ok_bind] at h
  dsimp only at h
  split at h
  · cases h
  · rename_i hlow
    split at h
    · -- the first half of a pair: the second half has to be what follows
      rename_i hhigh
      cases hcs with
      | nil => cases h
      | plain hq hb hc hcs =>
        split at h
        · rename_i heq
          exact absurd (List.cons.inj heq).1 hb
        · rename_i heq
          exact absurd (List.cons.inj heq).1 hb
        · cases h
        · cases h
      | simple hd hcs =>
        split at h
        · rename_i heq
          exact absurd (List.cons.inj (List.cons.inj heq).2).1 (ne_u_of_simpleEscape? hd)
        · cases h
        · cases h
        · cases h
      | @unicode q' cs' m hm hcs =>
        rw [List.cons_append, List.cons_append, List.append_assoc] at h
        simp only [hm.hex4_eq, Except.ok_bind] at h
        split at h
        · rename_i hpair
          obtain ⟨hc, hr⟩ := Prod.mk.inj (Except.ok.inj h)
          exact ⟨cs', hcs, hr.symm, fun ds hds => hc ▸ .pair hn hhigh hm hpair hds⟩
        · cases h
    · rename_i hhigh
      obtain ⟨hc, hr⟩ := Prod.mk.inj (Except.ok.inj h)
      exact ⟨cs, hcs, hr.symm, fun ds hds => hc ▸ .unicode hn (by omega) hds⟩

theorem unicodeEscape_single (hn : Hex q n) (h : ¬(0xD800 ≤ n ∧ n ≤ 0xDFFF)) (r : List Char) :
    unicodeEscape (q ++ r) = .ok (Char.ofNat n, r) := by
  rw [unicodeEscape, hn.hex4_eq, Except.ok_bind]
  dsimp only
  rw [if_neg (by omega), if_neg (by omega)]

theorem unicodeEscape_pair {q' : List Char} {m : Nat} (hm : Hex q m) (hhigh : 0xD800 ≤ m ∧ m ≤ 0xDBFF)
    (hn : Hex q' n) (hlow : 0xDC00 ≤ n ∧ n ≤ 0xDFFF) (r : List Char) :
    unicodeEscape (q ++ '\\' :: 'u' :: (q' ++ r)) =
      .ok (Char.ofNat (0x10000 + (m - 0xD800) * 0x400 + (n - 0xDC00)), r) := by
  rw [unicodeEscape, hm.hex4_eq, Except.ok_bind]
  dsimp only
  rw [if_neg (by omega), if_pos hhigh]
  simp only [hn.hex4_eq, Except.ok_bind, if_pos hlow]

/-- **A string is read** as what it stands for. -/
theorem stringFrom_denotes (h : Denotes cs ds) (r : List Char) : ∀ (fuel : Nat) (acc : List Char),
    ds.length < fuel →
      stringFrom fuel acc (cs ++ '"' :: r) = .ok (String.ofList (acc.reverse ++ ds), r) := by
  induction h with
  | nil =>
    intro fuel acc hfuel
    obtain ⟨fuel, rfl⟩ := Nat.exists_eq_add_one_of_ne_zero (Nat.ne_of_gt hfuel)
    rw [List.append_nil]
    rfl
  | @plain c cs ds hq hb hc _ ih =>
    intro fuel acc hfuel
    obtain ⟨fuel, rfl⟩ := Nat.exists_eq_add_one_of_ne_zero (Nat.ne_zero_of_lt hfuel)
    rw [List.cons_append, stringFrom_plain hq hb hc, ih fuel _ (Nat.lt_of_succ_lt_succ hfuel),
      List.reverse_cons, List.append_assoc]
    rfl
  | @simple c d cs ds hd _ ih =>
    intro fuel acc hfuel
    obtain ⟨fuel, rfl⟩ := Nat.exists_eq_add_one_of_ne_zero (Nat.ne_zero_of_lt hfuel)
    rw [List.cons_append, List.cons_append, stringFrom_simple hd,
      ih fuel _ (Nat.lt_of_succ_lt_succ hfuel), List.reverse_cons, List.append_assoc]
    rfl
  | @unicode q cs ds n hn hsingle _ ih =>
    intro fuel acc hfuel
    obtain ⟨fuel, rfl⟩ := Nat.exists_eq_add_one_of_ne_zero (Nat.ne_zero_of_lt hfuel)
    rw [List.cons_append, List.cons_append, List.append_assoc,
      stringFrom_unicode (unicodeEscape_single hn hsingle _),
      ih fuel _ (Nat.lt_of_succ_lt_succ hfuel), List.reverse_cons, List.append_assoc]
    rfl
  | @pair q q' cs ds m n hm hhigh hn hlow _ ih =>
    intro fuel acc hfuel
    obtain ⟨fuel, rfl⟩ := Nat.exists_eq_add_one_of_ne_zero (Nat.ne_zero_of_lt hfuel)
    rw [List.cons_append, List.cons_append, List.append_assoc, List.cons_append, List.cons_append,
      List.append_assoc, stringFrom_unicode (unicodeEscape_pair hm hhigh hn hlow _),
      ih fuel _ (Nat.lt_of_succ_lt_succ hfuel), List.reverse_cons, List.append_assoc]
    rfl

theorem Denotes.length_le (h : Denotes cs ds) : ds.length ≤ cs.length := by
  induction h with
  | nil => exact Nat.le_refl 0
  | plain | simple | unicode | pair =>
    simp only [List.length_cons, List.length_append]
    omega

theorem string_denotes (h : Denotes cs ds) (r : List Char) :
    string (cs ++ '"' :: r) = .ok (String.ofList ds, r) := by
  have hle := h.length_le
  rw [string, stringFrom_denotes h r _ _ (by rw [List.length_append]; omega)]
  rfl

/-- A string that is read stands for what was read, and is all that is there. -/
theorem stringFrom_inner {s : String} : ∀ {fuel : Nat} {acc cs : List Char}, Inner cs →
    stringFrom fuel acc (cs ++ '"' :: r) = .ok (s, r') →
      r' = r ∧ ∃ ds, Denotes cs ds ∧ s = String.ofList (acc.reverse ++ ds)
  | 0, _, _, _, h => by cases h
  | fuel + 1, acc, _, hcs, h => by
    cases hcs with
    | nil =>
      cases h
      exact ⟨rfl, [], .nil, by rw [List.append_nil]⟩
    | @plain c cs hq hb hc hcs =>
      rw [List.cons_append, stringFrom_plain hq hb hc] at h
      obtain ⟨hr, ds, hds, hs⟩ := stringFrom_inner hcs h
      exact ⟨hr, c :: ds, .plain hq hb hc hds, by rw [hs, List.reverse_cons, List.append_assoc]; rfl⟩
    | @simple c d cs hd hcs =>
      rw [List.cons_append, List.cons_append, stringFrom_simple hd] at h
      obtain ⟨hr, ds, hds, hs⟩ := stringFrom_inner hcs h
      exact ⟨hr, d :: ds, .simple hd hds, by rw [hs, List.reverse_cons, List.append_assoc]; rfl⟩
    | @unicode q cs n hn hcs =>
      rw [List.cons_append, List.cons_append, List.append_assoc] at h
      cases hescape : unicodeEscape (q ++ (cs ++ '"' :: r)) with
      | error e =>
        simp only [stringFrom, hescape] at h
        cases h
      | ok x =>
        obtain ⟨d, r''⟩ := x
        rw [stringFrom_unicode hescape] at h
        obtain ⟨cs', hcs', rfl, hdenotes⟩ := unicodeEscape_inner hn hcs hescape
        obtain ⟨hr, ds, hds, hs⟩ := stringFrom_inner hcs' h
        refine ⟨hr, d :: ds, hdenotes ds hds, ?_⟩
        rw [hs, List.reverse_cons, List.append_assoc]
        rfl

theorem string_inner {s : String} (hcs : Inner cs) (h : string (cs ++ '"' :: r) = .ok (s, r')) :
    r' = r ∧ Denotes cs s.toList := by
  obtain ⟨hr, ds, hds, rfl⟩ := stringFrom_inner hcs h
  rw [List.reverse_nil, List.nil_append, String.toList_ofList]
  exact ⟨hr, hds⟩

theorem Denotes.unique {s s' : String} (h : Denotes cs s.toList) (h' : Denotes cs s'.toList) :
    s = s' := by
  have hread := string_denotes h []
  rw [string_denotes h' [], String.ofList_toList, String.ofList_toList] at hread
  cases hread
  rfl

/-- A string is passed over, whatever it is. -/
theorem skipString_inner (h : Inner cs) (r : List Char) : ∀ {fuel : Nat}, cs.length < fuel →
    skipString fuel (cs ++ '"' :: r) = .ok r := by
  induction h with
  | nil =>
    intro fuel hfuel
    obtain ⟨fuel, rfl⟩ := Nat.exists_eq_add_one_of_ne_zero (Nat.ne_zero_of_lt hfuel)
    rfl
  | @plain c cs hq hb hc _ ih =>
    intro fuel hfuel
    obtain ⟨fuel, rfl⟩ := Nat.exists_eq_add_one_of_ne_zero (Nat.ne_zero_of_lt hfuel)
    have hq' : (c == '"') = false := beq_false_of_ne hq
    have hb' : (c == '\\') = false := beq_false_of_ne hb
    simp only [List.cons_append, skipString, hq', hb', Bool.false_eq_true, if_false,
      if_neg (Nat.not_lt.2 hc)]
    exact ih (Nat.lt_of_succ_lt_succ hfuel)
  | @simple c d cs hd _ ih =>
    intro fuel hfuel
    obtain ⟨fuel, rfl⟩ := Nat.exists_eq_add_one_of_ne_zero (Nat.ne_zero_of_lt hfuel)
    have hu := ne_u_of_simpleEscape? hd
    simp only [List.cons_append, skipString, hd, Option.isSome_some, if_true]
    simp only [List.length_cons] at hfuel
    exact ih (by omega)
  | @unicode q cs n hn _ ih =>
    intro fuel hfuel
    obtain ⟨fuel, rfl⟩ := Nat.exists_eq_add_one_of_ne_zero (Nat.ne_zero_of_lt hfuel)
    simp only [List.cons_append, List.append_assoc, skipString, hn.hex4_eq]
    simp only [List.length_cons, List.length_append] at hfuel
    exact ih (by omega)

end Reactor.Json
