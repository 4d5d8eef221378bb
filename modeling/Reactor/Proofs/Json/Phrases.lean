/-
  Texts of JSON as phrases of lexemes.

  * `Phrase` is the text of a value without its blanks, `lexemes` are its lexemes;
    `WellFormed` says that they are JSON;
  * `WellFormed.skip`: any such text is passed over, whatever it holds and however deep it
    nests.
-/
import Reactor.Proofs.Json.Lexemes
import Reactor.Proofs.Json.Numerals

namespace Reactor.Json

open Reader

/-- The text of a value, lexeme by lexeme. -/
inductive Phrase where
  | null
  | bool (b : Bool)
  | number (cs : List Char)
  /-- a string with a given inner text -/
  | string (cs : List Char)
  | list (items : List Phrase)
  /-- members with the inner texts of their names -/
  | object (members : List (List Char × Phrase))

namespace Phrase

/-- Induction over a phrase. -/
@[elab_as_elim]
theorem induct {motive : Phrase → Prop} (null : motive .null) (bool : ∀ b, motive (.bool b))
    (number : ∀ cs, motive (.number cs)) (string : ∀ cs, motive (.string cs))
    (list : ∀ items, (∀ t ∈ items, motive t) → motive (.list items))
    (object : ∀ members, (∀ m ∈ members, motive m.2) → motive (.object members)) (t : Phrase) :
    motive t := by
  refine @Phrase.rec motive (fun items => ∀ t ∈ items, motive t)
    (fun members => ∀ m ∈ members, motive m.2) (fun m => motive m.2)
    null bool number string list object nofun ?_ nofun ?_ (fun _ _ h => h) t
  · exact fun t items ht hitems => List.forall_mem_cons.2 ⟨ht, hitems⟩
  · exact fun m members hm hmembers => List.forall_mem_cons.2 ⟨hm, hmembers⟩

/-! ## Lexemes -/

/-- The lexeme of a string. -/
def quote (cs : List Char) : List Char := '"' :: (cs ++ ['"'])

/-- What stands before an item or a member. -/
def comma (first : Bool) : List (List Char) := if first then [] else [[',']]

mutual

/-- The lexemes of a text. -/
def lexemes : Phrase → List (List Char)
  | .null => [['n', 'u', 'l', 'l']]
  | .bool true => [['t', 'r', 'u', 'e']]
  | .bool false => [['f', 'a', 'l', 's', 'e']]
  | .number cs => [cs]
  | .string cs => [quote cs]
  | .list items => ['['] :: (itemLexemes true items ++ [[']']])
  | .object members => ['\x7b'] :: (memberLexemes true members ++ [['\x7d']])

/-- The lexemes of items, the first of which may be the first of its list. -/
def itemLexemes : Bool → List Phrase → List (List Char)
  | _, [] => []
  | first, t :: ts => comma first ++ (t.lexemes ++ itemLexemes false ts)

/-- The lexemes of members, the first of which may be the first of its object. -/
def memberLexemes : Bool → List (List Char × Phrase) → List (List Char)
  | _, [] => []
  | first, (k, t) :: ms => comma first ++ (quote k :: [':'] :: (t.lexemes ++ memberLexemes false ms))

end

/-- A text is JSON. -/
inductive WellFormed : Phrase → Prop
  | null : WellFormed .null
  | bool (b : Bool) : WellFormed (.bool b)
  | number {cs : List Char} : IsNumeral cs → WellFormed (.number cs)
  | string {cs : List Char} : Inner cs → WellFormed (.string cs)
  | list {items : List Phrase} : (∀ t ∈ items, WellFormed t) → WellFormed (.list items)
  | object {members : List (List Char × Phrase)} : (∀ m ∈ members, Inner m.1) →
      (∀ m ∈ members, WellFormed m.2) → WellFormed (.object members)

/-- A text holds a phrase, with any blanks between its lexemes. -/
def Written (t : Phrase) (text : String) : Prop := Spaced t.lexemes text.toList

/-- Lexemes that may follow a value: a mark, or nothing. -/
def Ends (ls : List (List Char)) : Prop := ∀ l ∈ ls.head?, l ∈ [[','], [']'], ['\x7d']]

theorem ends_nil : Ends [] := nofun

theorem ends_items (items : List Phrase) (rest : List (List Char)) :
    Ends (itemLexemes false items ++ [']'] :: rest) := by
  cases items <;> rintro l ⟨⟩ <;> simp

theorem ends_members (members : List (List Char × Phrase)) (rest : List (List Char)) :
    Ends (memberLexemes false members ++ ['\x7d'] :: rest) := by
  cases members <;> rintro l ⟨⟩ <;> simp

theorem stops_of_blank {c : Char} (hc : isBlank c = true) :
    c.isDigit = false ∧ c ∉ ['.', 'e', 'E'] := by
  simp only [isBlank, Bool.or_eq_true, beq_iff_eq] at hc
  rcases hc with ((rfl | rfl) | rfl) | rfl <;> decide

/-- What begins a number begins nothing else. -/
theorem ne_of_begins {c d : Char} (hc : (c == '-' || c.isDigit) = true)
    (hd : (d == '-' || d.isDigit) = false) : c ≠ d := by
  rintro rfl
  rw [hc] at hd
  cases hd

/-- No numeral goes on there. -/
theorem Ends.stops {ls : List (List Char)} {r : List Char} (hls : Ends ls) (h : Spaced ls r) :
    Stops r := by
  intro d hd
  cases h with
  | nil hb => exact stops_of_blank (hb d (List.mem_of_mem_head? hd))
  | @cons b t r c ls hb hc hr =>
    cases b with
    | nil =>
      cases hd
      have hmem := hls _ rfl
      simp only [List.mem_cons, List.cons.injEq, List.not_mem_nil, or_false] at hmem
      rcases hmem with ⟨rfl, -⟩ | ⟨rfl, -⟩ | ⟨rfl, -⟩ <;> decide
    | cons x b =>
      cases hd
      exact stops_of_blank (hb d List.mem_cons_self)

/-- A text begins with a lexeme that closes nothing. -/
theorem WellFormed.exists_lexeme {t : Phrase} (ht : t.WellFormed) : ∃ c l ls,
    t.lexemes = (c :: l) :: ls ∧ isBlank c = false ∧ c ∉ [',', ']', '\x7d'] := by
  cases ht with
  | null => exact ⟨_, _, _, rfl, rfl, by decide⟩
  | bool b => cases b <;> exact ⟨_, _, _, rfl, rfl, by decide⟩
  | number hcs =>
    obtain ⟨c, l, rfl, hc⟩ := hcs.exists_cons
    refine ⟨c, l, [], rfl, ?_, ?_⟩
    · simp only [isBlank, Bool.or_eq_false_iff, beq_eq_false_iff_ne]
      exact ⟨⟨⟨ne_of_begins hc rfl, ne_of_begins hc rfl⟩, ne_of_begins hc rfl⟩, ne_of_begins hc rfl⟩
    · simp only [List.mem_cons, List.not_mem_nil, or_false, not_or]
      exact ⟨ne_of_begins hc rfl, ne_of_begins hc rfl, ne_of_begins hc rfl⟩
  | string hcs => exact ⟨_, _, _, rfl, rfl, by decide⟩
  | list hitems => exact ⟨_, _, _, rfl, rfl, by decide⟩
  | object hnames hmembers => exact ⟨_, _, _, rfl, rfl, by decide⟩

/-! ## Passing over -/

mutual

/-- How many steps it takes to pass over a text. -/
def steps : Phrase → Nat
  | .null | .bool _ | .number _ | .string _ => 1
  | .list items => itemSteps items + 1
  | .object members => memberSteps members + 1

/-- How many steps it takes to pass over items, with what follows each. -/
def itemSteps : List Phrase → Nat
  | [] => 0
  | t :: ts => t.steps + (itemSteps ts + 1)

/-- How many steps it takes to pass over members, with what follows each. -/
def memberSteps : List (List Char × Phrase) → Nat
  | [] => 0
  | (_, t) :: ms => t.steps + (memberSteps ms + 1)

end

variable {t : Phrase} {rest : List (List Char)} {cs r : List Char} {fuel : Nat}
  {open_ : List Bracket}

/-- A text is passed over, and what is left is what follows it in its brackets. -/
def Skips (t : Phrase) : Prop := ∀ {rest : List (List Char)} {cs : List Char}, Ends rest →
  Spaced (t.lexemes ++ rest) cs → ∀ (fuel : Nat) (open_ : List Bracket),
    ∃ r, skipFrom (t.steps + fuel) open_ cs = skipAfter fuel open_ r ∧ Spaced rest r

theorem skipAfter_close (h : Spaced ([']'] :: rest) cs) (fuel : Nat) (open_ : List Bracket) :
    ∃ r, skipAfter (fuel + 1) (.list :: open_) cs = skipAfter fuel open_ r ∧ Spaced rest r := by
  obtain ⟨r, hr, hrest⟩ := h.lexeme
  refine ⟨r, ?_, hrest⟩
  rw [skipAfter, hr]
  rfl

/-- Items are passed over, with the end of their list. -/
theorem skipAfter_items : ∀ {items : List Phrase} {cs : List Char}, (∀ t ∈ items, Skips t) →
    Spaced (itemLexemes false items ++ [']'] :: rest) cs → ∀ (fuel : Nat) (open_ : List Bracket),
      ∃ r, skipAfter (itemSteps items + (fuel + 1)) (.list :: open_) cs = skipAfter fuel open_ r ∧
        Spaced rest r
  | [], cs, _, h, fuel, open_ => by
    rw [itemSteps, Nat.zero_add]
    exact skipAfter_close h fuel open_
  | t :: ts, cs, hitems, h, fuel, open_ => by
    rw [itemLexemes, List.append_assoc, List.append_assoc] at h
    obtain ⟨r, hr, hrest⟩ := h.lexeme
    obtain ⟨r', hskip, hrest'⟩ := hitems t List.mem_cons_self (ends_items ts _) hrest
      (itemSteps ts + (fuel + 1)) (.list :: open_)
    obtain ⟨r'', hafter, hend⟩ := skipAfter_items
      (fun t ht => hitems t (List.mem_cons_of_mem _ ht)) hrest' fuel open_
    refine ⟨r'', ?_, hend⟩
    rw [show itemSteps (t :: ts) + (fuel + 1) = t.steps + (itemSteps ts + (fuel + 1)) + 1 by
      rw [itemSteps]; omega, skipAfter, hr]
    exact hskip.trans hafter

theorem skipName_member {k : List Char} {ls : List (List Char)} (hk : Inner k)
    (h : Spaced (quote k :: [':'] :: ls) cs) : ∃ r, skipName cs = .ok r ∧ Spaced ls r := by
  obtain ⟨r, hr, hcolon⟩ := h.lexeme
  obtain ⟨r', hr', hls⟩ := hcolon.lexeme
  refine ⟨r', ?_, hls⟩
  rw [List.append_assoc, List.singleton_append] at hr
  have hlength : k.length < (k ++ '"' :: r).length + 1 := by rw [List.length_append]; omega
  rw [skipName, hr]
  simp only [skipString_inner hk r hlength, Except.ok_bind, hr']
  rfl

theorem skipAfter_brace (h : Spaced (['\x7d'] :: rest) cs) (fuel : Nat) (open_ : List Bracket) :
    ∃ r, skipAfter (fuel + 1) (.object :: open_) cs = skipAfter fuel open_ r ∧ Spaced rest r := by
  obtain ⟨r, hr, hrest⟩ := h.lexeme
  refine ⟨r, ?_, hrest⟩
  rw [skipAfter, hr]
  rfl

/-- Members are passed over, with the end of their object. -/
theorem skipAfter_members : ∀ {members : List (List Char × Phrase)} {cs : List Char},
    (∀ m ∈ members, Inner m.1) → (∀ m ∈ members, Skips m.2) →
    Spaced (memberLexemes false members ++ ['\x7d'] :: rest) cs →
      ∀ (fuel : Nat) (open_ : List Bracket), ∃ r,
        skipAfter (memberSteps members + (fuel + 1)) (.object :: open_) cs =
          skipAfter fuel open_ r ∧ Spaced rest r
  | [], cs, _, _, h, fuel, open_ => by
    rw [memberSteps, Nat.zero_add]
    exact skipAfter_brace h fuel open_
  | (k, t) :: ms, cs, hnames, hmembers, h, fuel, open_ => by
    rw [memberLexemes, List.append_assoc, List.cons_append, List.cons_append, List.append_assoc] at h
    obtain ⟨r₁, hr₁, hmember⟩ := h.lexeme
    obtain ⟨r₂, hname, hvalue⟩ := skipName_member (hnames _ List.mem_cons_self) hmember
    obtain ⟨r₃, hskip, hmore⟩ := hmembers _ List.mem_cons_self (ends_members ms _) hvalue
      (memberSteps ms + (fuel + 1)) (.object :: open_)
    obtain ⟨r₄, hafter, hend⟩ := skipAfter_members
      (fun m hm => hnames m (List.mem_cons_of_mem _ hm))
      (fun m hm => hmembers m (List.mem_cons_of_mem _ hm)) hmore fuel open_
    refine ⟨r₄, ?_, hend⟩
    rw [show memberSteps ((k, t) :: ms) + (fuel + 1) =
      t.steps + (memberSteps ms + (fuel + 1)) + 1 by rw [memberSteps]; omega, skipAfter, hr₁]
    simp only [List.nil_append, hname, Except.ok_bind]
    exact hskip.trans hafter

theorem skips_number {cs : List Char} (hcs : IsNumeral cs) : Skips (.number cs) := by
  intro rest text hrest h fuel open_
  obtain ⟨c, l, rfl, hc⟩ := hcs.exists_cons
  obtain ⟨r, hr, hls⟩ := h.lexeme
  refine ⟨r, ?_, hls⟩
  have hskip : skipNumber (c :: (l ++ r)) = .ok r := skipNumber_numeral hcs (hrest.stops hls)
  rw [steps, Nat.add_comm, skipFrom, hr]
  split
  · rename_i heq
    cases heq
  all_goals
    rename_i heq
    first
    | exact absurd (List.cons.inj heq).1 (ne_of_begins hc rfl)
    | (cases heq; rw [if_pos hc, hskip]; rfl)

theorem skips_list {items : List Phrase} (hitems : ∀ t ∈ items, Skips t)
    (hwf : ∀ t ∈ items, t.WellFormed) : Skips (.list items) := by
  intro rest cs hrest h fuel open_
  rw [lexemes, List.cons_append, List.append_assoc] at h
  obtain ⟨r, hr, hls⟩ := h.lexeme
  cases items with
  | nil =>
    obtain ⟨r', hr', hend⟩ := hls.lexeme
    refine ⟨r', ?_, hend⟩
    rw [steps, itemSteps, Nat.zero_add, Nat.add_comm, skipFrom, hr]
    simp only [List.nil_append, hr']
  | cons t ts =>
    rw [itemLexemes, List.append_assoc, List.append_assoc] at hls
    obtain ⟨c, l, ls, hfirst, hc, hmark⟩ := (hwf t List.mem_cons_self).exists_lexeme
    obtain ⟨x, hx, -⟩ := Spaced.lexeme (hfirst ▸ hls)
    obtain ⟨r', hskip, hrest'⟩ := hitems t List.mem_cons_self (ends_items ts _) hls.skipBlanks
      (itemSteps ts + (fuel + 1)) (.list :: open_)
    obtain ⟨r'', hafter, hend⟩ := skipAfter_items
      (fun t ht => hitems t (List.mem_cons_of_mem _ ht)) hrest' fuel open_
    refine ⟨r'', ?_, hend⟩
    rw [show (Phrase.list (t :: ts)).steps + fuel = t.steps + (itemSteps ts + (fuel + 1)) + 1 by
      rw [steps, itemSteps]; omega, skipFrom, hr]
    simp only [List.nil_append]
    -- an empty list is looked for first, so no value may begin like its end
    split
    · rename_i heq
      rw [hx] at heq
      exact absurd (List.cons.inj heq).1 fun hclose => hmark (by rw [hclose]; decide)
    · exact hskip.trans hafter

theorem skips_object {members : List (List Char × Phrase)} (hnames : ∀ m ∈ members, Inner m.1)
    (hmembers : ∀ m ∈ members, Skips m.2) : Skips (.object members) := by
  intro rest cs hrest h fuel open_
  rw [lexemes, List.cons_append, List.append_assoc] at h
  obtain ⟨r, hr, hls⟩ := h.lexeme
  cases members with
  | nil =>
    obtain ⟨r', hr', hend⟩ := hls.lexeme
    refine ⟨r', ?_, hend⟩
    rw [steps, memberSteps, Nat.zero_add, Nat.add_comm, skipFrom, hr]
    simp only [List.nil_append, hr']
  | cons m ms =>
    obtain ⟨k, t⟩ := m
    rw [memberLexemes, List.append_assoc, List.cons_append, List.cons_append,
      List.append_assoc] at hls
    obtain ⟨x, hx, -⟩ := Spaced.lexeme hls
    obtain ⟨r₁, hname, hvalue⟩ := skipName_member (hnames _ List.mem_cons_self) hls.skipBlanks
    obtain ⟨r₂, hskip, hmore⟩ := hmembers _ List.mem_cons_self (ends_members ms _) hvalue
      (memberSteps ms + (fuel + 1)) (.object :: open_)
    obtain ⟨r₃, hafter, hend⟩ := skipAfter_members
      (fun m hm => hnames m (List.mem_cons_of_mem _ hm))
      (fun m hm => hmembers m (List.mem_cons_of_mem _ hm)) hmore fuel open_
    refine ⟨r₃, ?_, hend⟩
    rw [show (Phrase.object ((k, t) :: ms)).steps + fuel =
      t.steps + (memberSteps ms + (fuel + 1)) + 1 by rw [steps, memberSteps]; omega, skipFrom, hr]
    simp only [List.nil_append]
    split
    · rename_i heq
      rw [hx] at heq
      cases (List.cons.inj heq).1
    · rw [hname, Except.ok_bind]
      exact hskip.trans hafter

/-- **Any text is passed over**, however deep it nests. -/
theorem WellFormed.skips (ht : t.WellFormed) : Skips t := by
  induction t using induct with
  | null =>
    intro rest cs hrest h fuel open_
    obtain ⟨r, hr, hls⟩ := h.lexeme
    refine ⟨r, ?_, hls⟩
    rw [steps, Nat.add_comm, skipFrom, hr]
    rfl
  | bool b =>
    intro rest cs hrest h fuel open_
    cases b
    · obtain ⟨r, hr, hls⟩ := h.lexeme
      refine ⟨r, ?_, hls⟩
      rw [steps, Nat.add_comm, skipFrom, hr]
      rfl
    · obtain ⟨r, hr, hls⟩ := h.lexeme
      refine ⟨r, ?_, hls⟩
      rw [steps, Nat.add_comm, skipFrom, hr]
      rfl
  | number cs =>
    cases ht with
    | number hcs => exact skips_number hcs
  | string cs =>
    cases ht with
    | string hcs =>
      intro rest text hrest h fuel open_
      obtain ⟨r, hr, hls⟩ := h.lexeme
      refine ⟨r, ?_, hls⟩
      rw [List.append_assoc, List.singleton_append] at hr
      have hlength : cs.length < (cs ++ '"' :: r).length + 1 := by rw [List.length_append]; omega
      rw [steps, Nat.add_comm, skipFrom, hr]
      simp only [skipString_inner hcs r hlength, Except.ok_bind]
  | list items ih =>
    cases ht with
    | list hitems => exact skips_list (fun t ht => ih t ht (hitems t ht)) hitems
  | object members ih =>
    cases ht with
    | object hnames hmembers => exact skips_object hnames fun m hm => ih m hm (hmembers m hm)

/-! ## How long a text is -/

theorem length_itemLexemes (first : Bool) (items : List Phrase) :
    (itemLexemes false items).length ≤ (itemLexemes first items).length + 1 := by
  cases items with
  | nil => exact Nat.zero_le _
  | cons t ts =>
    cases first
    · exact Nat.le_succ _
    · exact Nat.le_refl _

theorem length_memberLexemes (first : Bool) (members : List (List Char × Phrase)) :
    (memberLexemes false members).length ≤ (memberLexemes first members).length + 1 := by
  cases members with
  | nil => exact Nat.zero_le _
  | cons m ms =>
    cases first
    · exact Nat.le_succ _
    · exact Nat.le_refl _

theorem length_le_itemLexemes (items : List Phrase) :
    items.length ≤ (itemLexemes false items).length := by
  induction items with
  | nil => exact Nat.zero_le _
  | cons t ts ih =>
    rw [itemLexemes, List.length_append, List.length_append, List.length_cons,
      show (comma false).length = 1 from rfl]
    omega

theorem length_le_memberLexemes (members : List (List Char × Phrase)) :
    members.length ≤ (memberLexemes false members).length := by
  induction members with
  | nil => exact Nat.zero_le _
  | cons m ms ih =>
    obtain ⟨k, t⟩ := m
    rw [memberLexemes, List.length_append, List.length_cons, List.length_cons, List.length_cons,
      List.length_append]
    omega

theorem itemSteps_le {items : List Phrase} (h : ∀ t ∈ items, t.steps ≤ t.lexemes.length) :
    itemSteps items ≤ (itemLexemes false items).length := by
  induction items with
  | nil => exact Nat.zero_le _
  | cons t ts ih =>
    have ht := h t List.mem_cons_self
    have hts := ih fun t ht => h t (List.mem_cons_of_mem _ ht)
    rw [itemSteps, itemLexemes, List.length_append, List.length_append,
      show (comma false).length = 1 from rfl]
    omega

theorem memberSteps_le {members : List (List Char × Phrase)}
    (h : ∀ m ∈ members, m.2.steps ≤ m.2.lexemes.length) :
    memberSteps members ≤ (memberLexemes false members).length := by
  induction members with
  | nil => exact Nat.zero_le _
  | cons m ms ih =>
    have hm := h m List.mem_cons_self
    have hms := ih fun m hm => h m (List.mem_cons_of_mem _ hm)
    rw [memberSteps, memberLexemes, List.length_append, List.length_cons, List.length_cons,
      List.length_append]
    omega

theorem steps_le (t : Phrase) : t.steps ≤ t.lexemes.length := by
  induction t using induct with
  | null | number | string => exact Nat.le_refl 1
  | bool b => cases b <;> exact Nat.le_refl 1
  | list items ih =>
    have hle := Nat.le_trans (itemSteps_le ih) (length_itemLexemes true items)
    rw [steps, lexemes, List.length_cons, List.length_append]
    exact Nat.succ_le_succ hle
  | object members ih =>
    have hle := Nat.le_trans (memberSteps_le ih) (length_memberLexemes true members)
    rw [steps, lexemes, List.length_cons, List.length_append]
    exact Nat.succ_le_succ hle

/-- **What is passed over** is all of the text and no more. -/
theorem WellFormed.skip (ht : t.WellFormed) (hrest : Ends rest)
    (h : Spaced (t.lexemes ++ rest) cs) : ∃ r, skip cs = .ok r ∧ Spaced rest r := by
  have hsteps : t.steps + 1 ≤ 2 * cs.length + 2 := by
    have hle := h.length_le
    have hle' := t.steps_le
    rw [List.length_append] at hle
    omega
  obtain ⟨fuel, hfuel⟩ := Nat.exists_eq_add_of_le hsteps
  obtain ⟨r, hr, hls⟩ := ht.skips hrest h (1 + fuel) []
  refine ⟨r, ?_, hls⟩
  rw [Reader.skip, hfuel, Nat.add_assoc, hr, Nat.add_comm]
  rfl

end Phrase

end Reactor.Json
