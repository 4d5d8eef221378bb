/-
  Numbers in texts of JSON.

  * `IsNumeral` is the text of a number; `numeral_ok`: it is taken to its end, whatever
    the number is;
  * `number_intChars`: a whole number of 64 bits is read back.
-/
import Reactor.Proofs.Except
import Reactor.Proofs.Text.Digits
import Reactor.Json.Reader

namespace Reactor.Json

open Reader Text

variable {cs ds r : List Char} {c : Char}

/-! ## Numerals -/

/-- Digits, and at least one. -/
def SomeDigits (ds : List Char) : Prop := ds ≠ [] ∧ Digits ds

/-- The digits before the point, which are more than a zero only if they begin with
    none. -/
structure IsWhole (ds : List Char) : Prop where
  digits : SomeDigits ds
  zero : ds.head? = some '0' → ds = ['0']

/-- What stands behind the point, if there is one. -/
inductive IsFraction : List Char → Prop
  | none : IsFraction []
  | some {ds : List Char} : SomeDigits ds → IsFraction ('.' :: ds)

/-- A power of ten, if there is one. -/
inductive IsExponent : List Char → Prop
  | none : IsExponent []
  | some {mark : Char} {sign ds : List Char} : mark = 'e' ∨ mark = 'E' →
      sign ∈ [[], ['+'], ['-']] → SomeDigits ds → IsExponent (mark :: (sign ++ ds))

/-- The text of a number. -/
inductive IsNumeral : List Char → Prop
  | mk {sign whole fraction exponent : List Char} : sign ∈ [[], ['-']] → IsWhole whole →
      IsFraction fraction → IsExponent exponent →
      IsNumeral (sign ++ (whole ++ (fraction ++ exponent)))

/-- A text that does not go on with a numeral. -/
def Stops (r : List Char) : Prop := ∀ c ∈ r.head?, c.isDigit = false ∧ c ∉ ['.', 'e', 'E']

/-- A text that does not go on with a digit. -/
def NoDigit (r : List Char) : Prop := ∀ c ∈ r.head?, c.isDigit = false

theorem takeDigits_rest {ds : List Char} (hds : Digits ds) (hr : NoDigit r) :
    ∀ n taken skipped, ∃ x y z, takeDigits n taken skipped (ds ++ r) = (x, y, z, r) := by
  induction ds with
  | nil =>
    intro n taken skipped
    refine ⟨n, taken, skipped, ?_⟩
    cases r with
    | nil => rfl
    | cons c r => rw [List.nil_append, takeDigits, if_neg (by simp [hr c rfl])]
  | cons d ds ih =>
    intro n taken skipped
    have hd := hds d List.mem_cons_self
    have hds' : Digits ds := fun c hc => hds c (List.mem_cons_of_mem _ hc)
    rw [List.cons_append, takeDigits, if_pos hd]
    dsimp only
    split
    · exact ih hds' ..
    · exact ih hds' ..

theorem exponent_ok {sign ds : List Char} (hsign : sign ∈ [[], ['+'], ['-']]) (hds : SomeDigits ds)
    (hr : NoDigit r) : ∃ x, Reader.exponent (sign ++ (ds ++ r)) = .ok (x, r) := by
  obtain ⟨hne, hds⟩ := hds
  obtain ⟨d, ds, rfl⟩ := List.exists_cons_of_ne_nil hne
  have hd := hds d List.mem_cons_self
  have hrest : (d :: ds ++ r).dropWhile Char.isDigit = r := by
    rw [List.dropWhile_append_of_pos hds]
    cases r with
    | nil => rfl
    | cons c r => exact List.dropWhile_cons_of_neg (by simp [hr c rfl])
  obtain ⟨negative, hsigned⟩ :
      ∃ negative, Text.sign (sign ++ (d :: ds ++ r)) = (negative, d :: ds ++ r) := by
    simp only [List.mem_cons, List.not_mem_nil, or_false] at hsign
    rcases hsign with rfl | rfl | rfl
    · exact ⟨false, Text.sign_of_isDigit hd (ds ++ r)⟩
    · exact ⟨false, rfl⟩
    · exact ⟨true, rfl⟩
  rw [Reader.exponent, hsigned]
  simp only [List.cons_append] at hrest ⊢
  simp only [hd, if_true, hrest]
  exact ⟨_, rfl⟩

theorem Stops.noDigit (hr : Stops r) : NoDigit r := fun c hc => (hr c hc).1

theorem noDigit_exponent {e : List Char} (he : IsExponent e) (hr : Stops r) : NoDigit (e ++ r) := by
  cases he with
  | none => exact hr.noDigit
  | some hmark =>
    intro c hc
    cases hc
    rcases hmark with rfl | rfl <;> rfl

theorem noDigit_fraction {f e : List Char} (hf : IsFraction f) (he : IsExponent e) (hr : Stops r) :
    NoDigit (f ++ (e ++ r)) := by
  cases hf with
  | none => exact List.nil_append _ ▸ noDigit_exponent he hr
  | some =>
    intro c hc
    cases hc
    rfl

/-- What stands behind the fraction is taken. -/
theorem numeral_end {e : List Char} (he : IsExponent e) (hr : Stops r) (negative isWhole : Bool)
    (n : Nat) (x : Int) : ∃ m, (match e ++ r with
      | c :: r' =>
        if c == 'e' || c == 'E' then do
          let y ← Reader.exponent r'
          .ok (⟨negative, n, if y.1.1 then x - y.1.2 else x + y.1.2, false⟩, y.2)
        else .ok (⟨negative, n, x, isWhole⟩, e ++ r)
      | [] => .ok (⟨negative, n, x, isWhole⟩, []) : Except ReadError (Numeral × List Char)) =
      .ok (m, r) := by
  cases he with
  | none =>
    cases r with
    | nil => exact ⟨_, rfl⟩
    | cons d r =>
      have hd := (hr d rfl).2
      simp only [List.mem_cons, List.not_mem_nil, or_false, not_or] at hd
      rw [List.nil_append]
      simp only [beq_false_of_ne hd.2.1, beq_false_of_ne hd.2.2]
      exact ⟨_, rfl⟩
  | @some mark sign ds hmark hsign hds =>
    obtain ⟨y, hexponent⟩ := exponent_ok hsign hds hr.noDigit
    have hmark' : (mark == 'e' || mark == 'E') = true := by
      rcases hmark with rfl | rfl <;> rfl
    rw [List.cons_append, List.append_assoc]
    simp only [hmark', if_true, hexponent, Except.ok_bind]
    exact ⟨_, rfl⟩

/-- No point stands behind the digits but that of a fraction. -/
theorem ne_point {e : List Char} (he : IsExponent e) (hr : Stops r) (r' : List Char) :
    e ++ r ≠ '.' :: r' := by
  intro heq
  cases he with
  | none =>
    rw [List.nil_append] at heq
    exact (hr '.' (by rw [heq]; rfl)).2 (by decide)
  | some hmark =>
    cases (List.cons.inj heq).1
    rcases hmark with h | h <;> cases h

/-- **A numeral is taken to its end.** -/
theorem numeral_ok {whole f e : List Char} (hwhole : IsWhole whole) (hf : IsFraction f)
    (he : IsExponent e) (hr : Stops r) (negative : Bool) :
    ∃ n, numeral negative (whole ++ (f ++ (e ++ r))) = .ok (n, r) := by
  obtain ⟨⟨hne, hdigits⟩, hzero⟩ := hwhole
  obtain ⟨c, w, rfl⟩ := List.exists_cons_of_ne_nil hne
  have hc := hdigits c List.mem_cons_self
  have hafter := noDigit_fraction hf he hr
  obtain ⟨n, taken, skipped, htake⟩ := takeDigits_rest hdigits hafter 0 0 0
  -- a leading zero stands alone, and what may follow it is no digit
  have hlone : (c == '0' && ((w ++ (f ++ (e ++ r))).take 1).any Char.isDigit) = false := by
    by_cases h0 : c = '0'
    · subst h0
      cases hzero rfl
      rw [List.nil_append]
      generalize f ++ (e ++ r) = rest at hafter
      cases rest with
      | nil => rfl
      | cons d rest => simp [hafter d rfl]
    · simp [h0]
  rw [List.cons_append] at htake ⊢
  rw [numeral]
  simp only [hc, hlone, htake, Bool.not_true, Bool.false_eq_true, if_false]
  cases hf with
  | none =>
    have hpoint := ne_point he hr
    have hend := numeral_end he hr negative
    rw [List.nil_append]
    generalize e ++ r = rest at hpoint hend
    split
    · exact absurd rfl (hpoint _)
    · simp only [Except.ok_bind]
      exact hend ..
  | @some ds hds =>
    obtain ⟨hne, hds⟩ := hds
    obtain ⟨d, ds, rfl⟩ := List.exists_cons_of_ne_nil hne
    have hd := hds d List.mem_cons_self
    obtain ⟨m, taken', skipped', htake'⟩ :=
      takeDigits_rest hds (noDigit_exponent he hr) n 0 0
    rw [List.cons_append] at htake' ⊢
    rw [List.cons_append]
    simp only [hd, htake', if_true, Except.ok_bind]
    exact numeral_end he hr ..

/-- The first character of a number. -/
theorem IsNumeral.exists_cons (h : IsNumeral cs) :
    ∃ c t, cs = c :: t ∧ (c == '-' || c.isDigit) = true := by
  obtain @⟨sign, whole, f, e, hsign, ⟨⟨hne, hdigits⟩, -⟩, -, -⟩ := h
  obtain ⟨c, w, rfl⟩ := List.exists_cons_of_ne_nil hne
  simp only [List.mem_cons, List.not_mem_nil, or_false] at hsign
  rcases hsign with rfl | rfl
  · exact ⟨c, w ++ (f ++ e), rfl, by rw [hdigits c List.mem_cons_self, Bool.or_true]⟩
  · exact ⟨'-', _, rfl, rfl⟩

/-- A numeral is taken without its sign. -/
theorem IsNumeral.taken (h : IsNumeral cs) (hr : Stops r) :
    (∃ t n, cs = '-' :: t ∧ numeral true (t ++ r) = .ok (n, r)) ∨
      (∀ r', cs ++ r ≠ '-' :: r') ∧ ∃ n, numeral false (cs ++ r) = .ok (n, r) := by
  obtain @⟨sign, whole, f, e, hsign, hwhole, hf, he⟩ := h
  simp only [List.mem_cons, List.not_mem_nil, or_false] at hsign
  rcases hsign with rfl | rfl
  · simp only [List.append_assoc, List.nil_append]
    refine .inr ⟨fun r' heq => ?_, numeral_ok hwhole hf he hr false⟩
    obtain ⟨⟨hne, hdigits⟩, -⟩ := hwhole
    obtain ⟨c, w, rfl⟩ := List.exists_cons_of_ne_nil hne
    cases (List.cons.inj heq).1
    exact absurd (hdigits '-' List.mem_cons_self) (by decide)
  · obtain ⟨n, hn⟩ := numeral_ok hwhole hf he hr true
    refine .inl ⟨whole ++ (f ++ e), n, rfl, ?_⟩
    simpa only [List.append_assoc] using hn

/-- A number is passed over, however large it is. -/
theorem skipNumber_numeral (h : IsNumeral cs) (hr : Stops r) : skipNumber (cs ++ r) = .ok r := by
  rcases h.taken hr with ⟨t, n, rfl, hn⟩ | ⟨hplain, n, hn⟩
  · rw [List.cons_append, skipNumber, hn]
    rfl
  · rw [skipNumber, hn]
    · rfl
    · exact hplain

/-- A number that is read is all that is there. -/
theorem number_numeral (h : IsNumeral cs) (hr : Stops r) {j : Json}
    (hread : number (cs ++ r) = .ok (j, r')) : r' = r := by
  rcases h.taken hr with ⟨t, n, rfl, hn⟩ | ⟨hplain, n, hn⟩
  · rw [List.cons_append, number, hn, Except.ok_bind] at hread
    obtain ⟨v, -, hread⟩ := Except.bind_eq_ok.1 hread
    cases hread
    rfl
  · rw [number, hn, Except.ok_bind] at hread
    · obtain ⟨v, -, hread⟩ := Except.bind_eq_ok.1 hread
      cases hread
      rfl
    · exact hplain

/-! ## Whole numbers -/

theorem le_ofDigitChars {ds : List Char} : ∀ m, m ≤ Nat.ofDigitChars 10 ds m := by
  induction ds with
  | nil => exact fun m => Nat.le_refl m
  | cons d ds ih =>
    intro m
    rw [Nat.ofDigitChars_cons]
    exact Nat.le_trans (by omega) (ih _)

/-- The digits of a number of 64 bits are its significand. -/
theorem takeDigits_fits {ds : List Char} (hds : Digits ds) (hr : NoDigit r) :
    ∀ n taken, Nat.ofDigitChars 10 ds n < Word.count 64 →
      takeDigits n taken 0 (ds ++ r) = (Nat.ofDigitChars 10 ds n, taken + ds.length, 0, r) := by
  induction ds with
  | nil =>
    intro n taken _
    cases r with
    | nil => rfl
    | cons c r =>
      rw [List.nil_append, takeDigits, if_neg (by simp [hr c rfl])]
      rfl
  | cons d ds ih =>
    intro n taken hlt
    have hd := hds d List.mem_cons_self
    rw [Nat.ofDigitChars_cons, Nat.mul_comm, show '0'.toNat = 48 from rfl] at hlt ⊢
    have hstep : n * 10 + (d.toNat - 48) < Word.count 64 :=
      Nat.lt_of_le_of_lt (le_ofDigitChars _) hlt
    rw [List.cons_append, takeDigits, if_pos hd]
    dsimp only
    rw [if_pos ⟨rfl, hstep⟩, ih (fun c hc => hds c (List.mem_cons_of_mem _ hc)) _ _ hlt,
      List.length_cons, Nat.add_right_comm, Nat.add_assoc]

/-- A natural number of 64 bits is taken as it is. -/
theorem numeral_toDigits {n : Nat} (hn : n < Word.count 64) (hr : Stops r) (negative : Bool) :
    numeral negative (Nat.toDigits 10 n ++ r) = .ok (⟨negative, n, 0, true⟩, r) := by
  have hvalue : Nat.ofDigitChars 10 (Nat.toDigits 10 n) 0 = n :=
    Nat.ofDigitChars_toDigits (by decide) (by decide)
  have htake := takeDigits_fits (digits_toDigits n) hr.noDigit 0 0 (by rw [hvalue]; exact hn)
  rw [hvalue] at htake
  obtain ⟨c, ds, heq, hc, -, hzero⟩ := exists_toDigits n
  have hlone : (c == '0' && ((ds ++ r).take 1).any Char.isDigit) = false := by
    by_cases h0 : c = '0'
    · rw [hzero h0, List.nil_append]
      cases r with
      | nil => rw [List.take_nil, List.any_nil, Bool.and_false]
      | cons d r => simp [hr.noDigit d rfl]
    · simp [h0]
  rw [heq, List.cons_append] at htake ⊢
  rw [numeral]
  simp only [hc, hlone, htake, Bool.not_true, Bool.false_eq_true, if_false]
  split
  · exact absurd (hr '.' rfl).2 (by decide)
  · simp only [Except.ok_bind]
    cases r with
    | nil => rfl
    | cons d r =>
      have hd := (hr d rfl).2
      simp only [List.mem_cons, List.not_mem_nil, or_false, not_or] at hd
      simp only [beq_false_of_ne hd.2.1, beq_false_of_ne hd.2.2]
      rfl

/-- The text of a whole number. -/
def intChars (i : Int) : List Char := (toString i).toList

theorem intChars_ofNat (n : Nat) : intChars n = Nat.toDigits 10 n := Nat.toList_repr

theorem intChars_negSucc (n : Nat) : intChars (.negSucc n) = '-' :: Nat.toDigits 10 (n + 1) := by
  show ("-" ++ Nat.repr (n + 1)).toList = _
  rw [String.toList_append, Nat.toList_repr]
  rfl

theorem isWhole_toDigits (n : Nat) : IsWhole (Nat.toDigits 10 n) := by
  obtain ⟨c, ds, heq, -, -, hzero⟩ := exists_toDigits n
  refine ⟨⟨Nat.toDigits_ne_nil, digits_toDigits n⟩, fun h => ?_⟩
  rw [heq] at h ⊢
  cases h
  rw [hzero rfl]

theorem isNumeral_intChars (i : Int) : IsNumeral (intChars i) := by
  cases i with
  | ofNat n =>
    have h := @IsNumeral.mk [] _ _ _ (by simp) (isWhole_toDigits n) .none .none
    rw [List.append_nil, List.append_nil, List.nil_append] at h
    exact intChars_ofNat n ▸ h
  | negSucc n =>
    have h := @IsNumeral.mk ['-'] _ _ _ (by simp) (isWhole_toDigits (n + 1)) .none .none
    rw [List.append_nil, List.append_nil] at h
    exact intChars_negSucc n ▸ h

/-- **A whole number is read back.** -/
theorem number_intChars {i : Int} (hlow : -(Word.count 63 : Int) ≤ i) (hhigh : i < Word.count 64)
    (hr : Stops r) : number (intChars i ++ r) = .ok (.int i, r) := by
  cases i with
  | ofNat n =>
    have hn : n < Word.count 64 := by
      have : ((n : Nat) : Int) < (Word.count 64 : Nat) := hhigh
      exact_mod_cast this
    obtain ⟨c, ds, heq, hc, -⟩ := exists_toDigits n
    have hnumeral := numeral_toDigits hn hr false
    show number (intChars n ++ r) = _
    rw [intChars_ofNat]
    rw [number, hnumeral]
    · rfl
    · intro r' h
      rw [heq] at h
      cases (List.cons.inj h).1
      exact absurd hc (by decide)
  | negSucc n =>
    have hle : n + 1 ≤ Word.count 63 := by omega
    have hlt : n + 1 < Word.count 64 := Nat.lt_of_le_of_lt hle (by decide)
    have hvalue : Numeral.value ⟨true, n + 1, 0, true⟩ = .ok (.int (.negSucc n)) := by
      rw [Numeral.value, if_neg (by simp), if_pos ⟨rfl, Nat.succ_pos n, hle⟩]
      rfl
    rw [intChars_negSucc, List.cons_append, number, numeral_toDigits hlt hr, Except.ok_bind]
    dsimp only
    rw [hvalue]
    rfl

end Reactor.Json
