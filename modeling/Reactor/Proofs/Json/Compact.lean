/-
  The compact text of a value.

  * `phrase` is the compact text as a phrase: `written_phrase`;
  * `FloatFree`: no float occurs in a value; `spells_phrase`: such a value is
    spelled by its compact text.
-/
import Mathlib.Tactic.SplitIfs
import Reactor.Json.Printer
import Reactor.Proofs.Json.Values

namespace Reactor.Json

open Reader
open Phrase (quote comma itemLexemes memberLexemes Written)

/-- The inner text of a string. -/
def escaped (s : String) : List Char := s.toList.flatMap escapeChar

mutual

/-- The compact text of a value. -/
def phrase : Json → Phrase
  | .null => .null
  | .bool b => .bool b
  | .int i => .number (intChars i)
  | .float x => .number (floatText x).toList
  | .str s => .string (escaped s)
  | .arr items => .list (itemPhrases items)
  | .obj fields => .object (memberPhrases fields)

/-- The texts of items. -/
def itemPhrases : List Json → List Phrase
  | [] => []
  | j :: items => phrase j :: itemPhrases items

/-- The names and texts of fields. -/
def memberPhrases : List (String × Json) → List (List Char × Phrase)
  | [] => []
  | (k, j) :: fields => (escaped k, phrase j) :: memberPhrases fields

end

theorem itemPhrases_eq (items : List Json) : itemPhrases items = items.map phrase := by
  induction items with
  | nil => rfl
  | cons j items ih => rw [itemPhrases, ih, List.map_cons]

theorem memberPhrases_eq (fields : Fields Json) :
    memberPhrases fields = fields.map fun f => (escaped f.1, phrase f.2) := by
  induction fields with
  | nil => rfl
  | cons f fields ih => rw [memberPhrases, ih, List.map_cons]

/-! ## Its characters -/

/-- The characters of the compact text. -/
def chars (j : Json) : List Char := j.compress.toList

theorem toList_foldl_push (cs : List Char) (out : String) :
    (cs.foldl String.push out).toList = out.toList ++ cs := by
  induction cs generalizing out with
  | nil => simp
  | cons c cs ih => rw [List.foldl_cons, ih, String.toList_push, List.append_assoc]; rfl

theorem toList_foldl_escape (cs : List Char) (out : String) :
    (cs.foldl (fun out c => (escapeChar c).foldl String.push out) out).toList =
      out.toList ++ cs.flatMap escapeChar := by
  induction cs generalizing out with
  | nil => simp
  | cons c cs ih =>
    rw [List.foldl_cons, ih, toList_foldl_push, List.flatMap_cons, List.append_assoc]

theorem toList_appendQuoted (out s : String) :
    (appendQuoted out s).toList = out.toList ++ quote (escaped s) := by
  rw [appendQuoted, String.foldl_eq_foldl_toList, String.toList_push, toList_foldl_escape,
    String.toList_push]
  simp [quote, escaped]

mutual

theorem append_eq (out : String) : ∀ j, append out j = out ++ append "" j
  | .null => by simp [append]
  | .bool b => by simp [append]
  | .int i => by simp [append]
  | .float x => by simp [append]
  | .str s => by
    rw [append, append, ← String.toList_inj, String.toList_append, toList_appendQuoted,
      toList_appendQuoted]
    simp
  | .arr items => by
    rw [append, append, appendItems_eq _ _ items, appendItems_eq ("".push '[') _ items]
    simp [← String.toList_inj]
  | .obj fields => by
    rw [append, append, appendFields_eq _ _ fields, appendFields_eq ("".push '\x7b') _ fields]
    simp [← String.toList_inj]

theorem appendItems_eq (out : String) (first : Bool) :
    ∀ items, appendItems out first items = out ++ appendItems "" first items
  | [] => by simp [appendItems]
  | j :: r => by
    rw [appendItems, appendItems, appendItems_eq _ _ r, append_eq _ j,
      appendItems_eq (append _ j) _ r, append_eq (if first then "" else _) j]
    cases first <;> simp [← String.toList_inj]

theorem appendFields_eq (out : String) (first : Bool) :
    ∀ fields, appendFields out first fields = out ++ appendFields "" first fields
  | [] => by simp [appendFields]
  | (k, j) :: r => by
    rw [appendFields, appendFields, appendFields_eq _ _ r, append_eq _ j,
      appendFields_eq (append _ j) _ r, append_eq ((appendQuoted (if first then "" else _) k).push ':') j]
    cases first <;> simp [← String.toList_inj, toList_appendQuoted]

end

theorem toList_append_value (out : String) (j : Json) :
    (append out j).toList = out.toList ++ chars j := by
  rw [append_eq, String.toList_append]; rfl

theorem toList_appendItems {items : List Json}
    (h : ∀ j ∈ items, chars j = j.phrase.lexemes.flatten) (out : String) (first : Bool) :
    (appendItems out first items).toList =
      out.toList ++ (itemLexemes first (itemPhrases items)).flatten := by
  induction items generalizing out first with
  | nil => simp [appendItems, itemPhrases, itemLexemes]
  | cons j items ih =>
    have hitems := ih fun j hj => h j (List.mem_cons_of_mem _ hj)
    rw [appendItems, hitems, toList_append_value, h j List.mem_cons_self, itemPhrases, itemLexemes,
      List.flatten_append, List.flatten_append]
    cases first <;> simp [comma]

theorem toList_appendFields {fields : Fields Json}
    (h : ∀ k j, (k, j) ∈ fields → chars j = j.phrase.lexemes.flatten) (out : String) (first : Bool) :
    (appendFields out first fields).toList =
      out.toList ++ (memberLexemes first (memberPhrases fields)).flatten := by
  induction fields generalizing out first with
  | nil => simp [appendFields, memberPhrases, memberLexemes]
  | cons f fields ih =>
    obtain ⟨k, j⟩ := f
    have hfields := ih fun k j hj => h k j (List.mem_cons_of_mem _ hj)
    rw [appendFields, hfields, toList_append_value, String.toList_push, toList_appendQuoted,
      h k j List.mem_cons_self, memberPhrases, memberLexemes, List.flatten_append,
      List.flatten_cons, List.flatten_cons, List.flatten_append]
    cases first <;> simp [comma]

theorem chars_eq (j : Json) : chars j = j.phrase.lexemes.flatten := by
  induction j using induct with
  | null => rfl
  | bool b => cases b <;> rfl
  | int i => simp [chars, compress, append, phrase, Phrase.lexemes, intChars]
  | float x => simp [chars, compress, append, phrase, Phrase.lexemes]
  | str s =>
    rw [chars, compress, append, toList_appendQuoted, phrase, Phrase.lexemes, List.flatten_singleton]
    rfl
  | arr items ih =>
    rw [chars, compress, append, String.toList_push, toList_appendItems ih, phrase, Phrase.lexemes,
      List.flatten_cons, List.flatten_append, List.flatten_singleton]
    rfl
  | obj fields ih =>
    rw [chars, compress, append, String.toList_push, toList_appendFields ih, phrase, Phrase.lexemes,
      List.flatten_cons, List.flatten_append, List.flatten_singleton]
    rfl

theorem begins_itemLexemes {items : List Phrase}
    (h : ∀ t ∈ items, ∀ l ∈ t.lexemes, ∃ c l', l = c :: l' ∧ isBlank c = false) (first : Bool) :
    ∀ l ∈ itemLexemes first items, ∃ c l', l = c :: l' ∧ isBlank c = false := by
  induction items generalizing first with
  | nil => exact nofun
  | cons t items ih =>
    have hcomma : ∀ l ∈ comma first, ∃ c l', l = c :: l' ∧ isBlank c = false := by
      cases first
      · exact List.forall_mem_singleton.2 ⟨_, _, rfl, rfl⟩
      · exact nofun
    exact List.forall_mem_append.2 ⟨hcomma, List.forall_mem_append.2
      ⟨h t List.mem_cons_self, ih (fun t ht => h t (List.mem_cons_of_mem _ ht)) false⟩⟩

theorem begins_memberLexemes {members : List (List Char × Phrase)}
    (h : ∀ m ∈ members, ∀ l ∈ m.2.lexemes, ∃ c l', l = c :: l' ∧ isBlank c = false) (first : Bool) :
    ∀ l ∈ memberLexemes first members, ∃ c l', l = c :: l' ∧ isBlank c = false := by
  induction members generalizing first with
  | nil => exact nofun
  | cons m members ih =>
    have hcomma : ∀ l ∈ comma first, ∃ c l', l = c :: l' ∧ isBlank c = false := by
      cases first
      · exact List.forall_mem_singleton.2 ⟨_, _, rfl, rfl⟩
      · exact nofun
    exact List.forall_mem_append.2 ⟨hcomma, List.forall_mem_cons.2 ⟨⟨_, _, rfl, rfl⟩,
      List.forall_mem_cons.2 ⟨⟨_, _, rfl, rfl⟩, List.forall_mem_append.2
        ⟨h m List.mem_cons_self, ih (fun m hm => h m (List.mem_cons_of_mem _ hm)) false⟩⟩⟩⟩

/-- Each lexeme of a text begins with something. -/
theorem Phrase.WellFormed.lexemes_begin {t : Phrase} (ht : t.WellFormed) :
    ∀ l ∈ t.lexemes, ∃ c l', l = c :: l' ∧ isBlank c = false := by
  have hmark {c : Char} {l : List Char} (hc : isBlank c = false) :
      ∃ c' l', c :: l = c' :: l' ∧ isBlank c' = false := ⟨_, _, rfl, hc⟩
  induction t using Phrase.induct with
  | null => exact List.forall_mem_singleton.2 (hmark rfl)
  | bool b => cases b <;> exact List.forall_mem_singleton.2 (hmark rfl)
  | number cs =>
    obtain ⟨c, l, ls, hl, hc, -⟩ := ht.exists_lexeme
    cases hl
    exact List.forall_mem_singleton.2 (hmark hc)
  | string cs => exact List.forall_mem_singleton.2 (hmark rfl)
  | list items ih =>
    cases ht with
    | list hitems =>
      exact List.forall_mem_cons.2 ⟨hmark rfl, List.forall_mem_append.2
        ⟨begins_itemLexemes (fun t ht => ih t ht (hitems t ht)) true,
          List.forall_mem_singleton.2 (hmark rfl)⟩⟩
  | object members ih =>
    cases ht with
    | object _ hmembers =>
      exact List.forall_mem_cons.2 ⟨hmark rfl, List.forall_mem_append.2
        ⟨begins_memberLexemes (fun m hm => ih m hm (hmembers m hm)) true,
          List.forall_mem_singleton.2 (hmark rfl)⟩⟩

/-- **The compact text of a value** is one without blanks. -/
theorem written_phrase {j : Json} (h : j.phrase.WellFormed) : Written j.phrase j.compress :=
  show Spaced j.phrase.lexemes (chars j) from chars_eq j ▸ spaced_flatten h.lexemes_begin

/-! ## What it spells -/

theorem hexValue?_hexDigit : ∀ n < 16, Text.hexValue? (Text.hexDigit n) = some n := by decide

theorem hex_control {n : Nat} (h : n < 32) :
    Hex ['0', '0', Text.hexDigit (n / 16), Text.hexDigit (n % 16)] n := by
  have hhex := @Hex.mk '0' '0' _ _ 0 0 _ _ rfl rfl (hexValue?_hexDigit (n / 16) (by omega))
    (hexValue?_hexDigit (n % 16) (by omega))
  rwa [show ((0 * 16 + 0) * 16 + n / 16) * 16 + n % 16 = n by omega] at hhex

theorem denotes_escapeChar (c : Char) {cs ds : List Char} (h : Denotes cs ds) :
    Denotes (escapeChar c ++ cs) (c :: ds) := by
  unfold escapeChar
  split_ifs with hquote hslash hplain hn hr ht hb hf
  · rw [beq_iff_eq.1 hquote]; exact .simple rfl h
  · rw [beq_iff_eq.1 hslash]; exact .simple rfl h
  · exact .plain (fun heq => hquote (beq_iff_eq.2 heq)) (fun heq => hslash (beq_iff_eq.2 heq)) hplain h
  · rw [beq_iff_eq.1 hn]; exact .simple rfl h
  · rw [beq_iff_eq.1 hr]; exact .simple rfl h
  · rw [beq_iff_eq.1 ht]; exact .simple rfl h
  · rw [beq_iff_eq.1 hb]; exact .simple rfl h
  · rw [beq_iff_eq.1 hf]; exact .simple rfl h
  · have hchar := Denotes.unicode (hex_control (Nat.lt_of_not_le hplain)) (by omega) h
    rwa [Char.ofNat_toNat] at hchar

theorem denotes_escaped (s : String) : Denotes (escaped s) s.toList := by
  unfold escaped
  induction s.toList with
  | nil => exact .nil
  | cons c cs ih => exact denotes_escapeChar c ih

/-- No float occurs in a value. -/
inductive FloatFree : Json → Prop
  | null : FloatFree .null
  | bool (b : Bool) : FloatFree (.bool b)
  | int (i : Int) : FloatFree (.int i)
  | str (s : String) : FloatFree (.str s)
  | arr {items : List Json} : (∀ j ∈ items, FloatFree j) → FloatFree (.arr items)
  | obj {fields : Fields Json} : (∀ k j, (k, j) ∈ fields → FloatFree j) → FloatFree (.obj fields)

theorem mem_zip_map {β γ : Type} {f : β → γ} {b : β} {g : γ} {bs : List β}
    (h : (b, g) ∈ bs.zip (bs.map f)) : b ∈ bs ∧ g = f b := by
  have hzip : bs.zip (bs.map f) = bs.map fun b => (b, f b) := by
    rw [← List.zip_map', List.map_id']
  obtain ⟨b, hb, heq⟩ := List.mem_map.1 (hzip ▸ h)
  cases heq
  exact ⟨hb, rfl⟩

/-- **A value without floats** is spelled by its compact text. -/
theorem spells_phrase {j : Json} (h : FloatFree j) : Spells j j.phrase := by
  induction h with
  | null => exact .null
  | bool b => exact .bool b
  | int i => exact .int i
  | str s => exact .str (denotes_escaped s)
  | arr _ ih =>
    rw [phrase, itemPhrases_eq]
    refine .arr (List.length_map _).symm fun hmem => ?_
    obtain ⟨hj, rfl⟩ := mem_zip_map hmem
    exact ih _ hj
  | obj _ ih =>
    rw [phrase, memberPhrases_eq]
    refine .obj (.refl _) (List.length_map _).symm (fun hmem => ?_) fun hmem => ?_
    · obtain ⟨-, rfl⟩ := mem_zip_map hmem
      exact denotes_escaped _
    · obtain ⟨hf, rfl⟩ := mem_zip_map hmem
      exact ih _ _ hf

end Reactor.Json
