/-
  Configurations of modules in a directory.

  * `Stem` says what the stem of a name is, and `stemOf_eq_iff` that it is what is
    taken of the name;
  * `Holds` says that an entry holds the configuration of a module, `IsFirst` that it
    comes before all others that do, and `PassedOver` that it has no say;
  * `first?_filter_eq_some`: the entry that is chosen is the first;
  * `IsFirst.of_passedOver`: which one that is, entries without a say do not change;
  * `configured_by_first`: so a module has its configuration from the first entry, if
    there is one, in whatever order the entries are listed, and entries without a say
    may come, change and go.
-/
import Mathlib.Data.List.Nodup
import Reactor.Engine.Resolver
import Reactor.Proofs.Text.Order

namespace Reactor

/-- The bytes of the name of an entry. -/
def DirectoryEntry.bytes (e : DirectoryEntry) : List UInt8 := e.name.data.toList

namespace Resolver

/-! ## Stems -/

/-- The stem of a name ends before the last dot (46); but a name without a dot, or with
    no other than the one it starts with, is its own stem. -/
inductive Stem : List UInt8 → List UInt8 → Prop
  | whole {name : List UInt8} : 46 ∉ name.tail → Stem name name
  | upTo {stem ext : List UInt8} : stem ≠ [] → 46 ∉ ext → Stem (stem ++ 46 :: ext) stem

theorem exists_stem (name : List UInt8) : ∃ stem, Stem name stem := by
  by_cases h : 46 ∈ name.tail
  · cases name with
    | nil => cases h
    | cons b rest =>
      -- the last dot is the first one from behind
      obtain ⟨ext, before, hrest, hext⟩ := List.eq_append_cons_of_mem (List.mem_reverse.2 h)
      obtain rfl : rest = before.reverse ++ 46 :: ext.reverse := by
        simpa using List.reverse_eq_append_iff.1 hrest
      exact ⟨b :: before.reverse, .upTo (List.cons_ne_nil _ _) (by simpa using hext)⟩
  · exact ⟨name, .whole h⟩

theorem dropWhile_no_dot {bs : List UInt8} (h : 46 ∉ bs) (rest : List UInt8) :
    (bs.reverse ++ rest).dropWhile (· != 46) = rest.dropWhile (· != 46) := by
  refine List.dropWhile_append_of_pos fun b hb => ?_
  rw [bne_iff_ne]
  rintro rfl
  exact h (List.mem_reverse.1 hb)

theorem stemOf_of_stem {name stem : List UInt8} (h : Stem name stem) : stemOf name = stem := by
  cases h with
  | whole h =>
    cases name with
    | nil => rfl
    | cons b rest =>
      have hdrop : (rest.reverse ++ [b]).dropWhile (· != 46) = if b = 46 then [46] else [] := by
        rw [List.tail_cons] at h
        rw [dropWhile_no_dot h]
        by_cases hb : b = 46 <;> simp [hb]
      rw [stemOf, List.reverse_cons, hdrop]
      split <;> rfl
  | @upTo _ ext hne hext =>
    have hdrop : (stem ++ 46 :: ext).reverse.dropWhile (· != 46) = 46 :: stem.reverse := by
      rw [List.reverse_append, List.reverse_cons, List.append_assoc, dropWhile_no_dot hext]
      rfl
    rw [stemOf, hdrop]
    simp [hne]

/-- The stem of a name is what is taken of it. -/
theorem stemOf_eq_iff {name stem : List UInt8} : stemOf name = stem ↔ Stem name stem := by
  constructor
  · rintro rfl
    obtain ⟨stem, h⟩ := exists_stem name
    rwa [stemOf_of_stem h]
  · exact stemOf_of_stem

theorem stem?_eq_some {e : DirectoryEntry} (he : e.bytes ≠ [46, 46]) {s : String} :
    stem? e.name = some s ↔ Stem e.bytes (Text.bytes s) := by
  have hbytes : e.name.toList ≠ [46, 46] := by rwa [Text.toList_eq_data]
  rw [← stemOf_eq_iff, stem?, Text.fromUTF8?_eq_some, if_neg hbytes, ByteArray.ext_iff,
    ← Array.toList_inj, Text.toList_eq_data]
  rfl

/-! ## The first entry -/

/-- An entry holds the configuration of a module: it is a file, and its stem is a text
    that is the name of the module, both in lower case. -/
def Holds (m : String) (e : DirectoryEntry) : Prop :=
  e.content?.isSome ∧ ∃ s, Stem e.bytes (Text.bytes s) ∧ Text.lowercase s = Text.lowercase m

/-- Entries as a directory has them: all with different names, and without the
    directory itself and the one above it. -/
structure IsListing (entries : List DirectoryEntry) : Prop where
  distinct : (entries.map (·.bytes)).Nodup
  inside : ∀ e ∈ entries, e.bytes ≠ [46] ∧ e.bytes ≠ [46, 46]

/-- An entry comes first of those that hold the configuration of a module: the bytes of
    its name are the least. -/
structure IsFirst (m : String) (entries : List DirectoryEntry) (e : DirectoryEntry) : Prop where
  mem : e ∈ entries
  holds : Holds m e
  least : ∀ x ∈ entries, Holds m x → e.bytes ≤ x.bytes

/-- An entry has no say: it does not hold the configuration of a module, or another one
    does that comes first and before it. -/
def PassedOver (m : String) (entries : List DirectoryEntry) (x : DirectoryEntry) : Prop :=
  ¬Holds m x ∨ ∃ e, IsFirst m entries e ∧ e.bytes < x.bytes

variable {m : String} {entries entries' : List DirectoryEntry} {e e' : DirectoryEntry}

instance : Decidable (IsListing entries) :=
  decidable_of_iff ((entries.map (·.bytes)).Nodup ∧
      ∀ e ∈ entries, e.bytes ≠ [46] ∧ e.bytes ≠ [46, 46])
    ⟨fun h => ⟨h.1, h.2⟩, fun h => ⟨h.distinct, h.inside⟩⟩

theorem isNamed_iff (he : e.bytes ≠ [46, 46]) : isNamed m e ↔ Holds m e := by
  simp only [isNamed, Holds, Bool.and_eq_true, Option.any_eq_true, stem?_eq_some he, beq_iff_eq]

theorem IsListing.mem_filter (h : IsListing entries) :
    e ∈ entries.filter (isNamed m) ↔ e ∈ entries ∧ Holds m e := by
  rw [List.mem_filter]
  exact and_congr_right fun he => isNamed_iff (h.inside e he).2

theorem IsListing.perm (h : IsListing entries) (hperm : entries.Perm entries') :
    IsListing entries' :=
  ⟨(hperm.map _).nodup_iff.1 h.distinct, fun e he => h.inside e (hperm.mem_iff.2 he)⟩

theorem IsFirst.unique (h : IsListing entries) (he : IsFirst m entries e)
    (he' : IsFirst m entries e') : e = e' := by
  refine List.inj_on_of_nodup_map h.distinct he.mem he'.mem ?_
  exact List.le_antisymm (he.least e' he'.mem he'.holds) (he'.least e he.mem he.holds)

/-- Bytes are compared one after the other. -/
theorem bytesLe_iff : ∀ {xs ys : List UInt8}, bytesLe xs ys ↔ xs ≤ ys
  | [], ys => by simp [bytesLe]
  | x :: xs, [] => by simp [bytesLe]
  | x :: xs, y :: ys => by
    simp only [bytesLe, Bool.or_eq_true, decide_eq_true_eq, Bool.and_eq_true, beq_iff_eq,
      bytesLe_iff, List.cons_le_cons_iff]

theorem bytesLe_name {x y : DirectoryEntry} :
    bytesLe x.name.toList y.name.toList ↔ x.bytes ≤ y.bytes := by
  rw [Text.toList_eq_data, Text.toList_eq_data, bytesLe_iff]
  rfl

theorem first?_eq_none {es : List DirectoryEntry} : first? es = none ↔ es = [] := by
  cases es with
  | nil => simp [first?]
  | cons x es =>
    rw [first?]
    split
    · simp
    · split <;> simp

theorem least_of_first? {es : List DirectoryEntry} (h : first? es = some e) :
    e ∈ es ∧ ∀ x ∈ es, e.bytes ≤ x.bytes := by
  induction es generalizing e with
  | nil => cases h
  | cons x es ih =>
    rw [first?] at h
    split at h
    · rename_i hnone
      cases h
      simp [first?_eq_none.1 hnone]
    · rename_i y hy
      obtain ⟨hmem, hleast⟩ := ih hy
      split at h
      · rename_i hle
        cases h
        refine ⟨List.mem_cons_self, List.forall_mem_cons.2 ⟨List.le_refl _, fun z hz => ?_⟩⟩
        exact List.le_trans (bytesLe_name.1 hle) (hleast z hz)
      · rename_i hnot
        cases h
        refine ⟨List.mem_cons_of_mem _ hmem, List.forall_mem_cons.2 ⟨?_, hleast⟩⟩
        exact (List.le_total _ _).resolve_left fun hle => hnot (bytesLe_name.2 hle)

theorem isFirst_of_first? (h : IsListing entries)
    (he : first? (entries.filter (isNamed m)) = some e) : IsFirst m entries e := by
  obtain ⟨hmem, hleast⟩ := least_of_first? he
  obtain ⟨hmem, hholds⟩ := h.mem_filter.1 hmem
  exact ⟨hmem, hholds, fun x hx hxholds => hleast x (h.mem_filter.2 ⟨hx, hxholds⟩)⟩

theorem exists_first? (h : IsListing entries) (he : e ∈ entries) (hholds : Holds m e) :
    ∃ x, first? (entries.filter (isNamed m)) = some x := by
  refine Option.ne_none_iff_exists'.1 fun hnone => ?_
  have hmem := h.mem_filter.2 ⟨he, hholds⟩
  rw [first?_eq_none.1 hnone] at hmem
  cases hmem

/-- The entry that is chosen is the first. -/
theorem first?_filter_eq_some (h : IsListing entries) :
    first? (entries.filter (isNamed m)) = some e ↔ IsFirst m entries e := by
  constructor
  · exact isFirst_of_first? h
  · intro he
    obtain ⟨x, hx⟩ := exists_first? h he.mem he.holds
    rwa [he.unique h (isFirst_of_first? h hx)]

theorem exists_isFirst (h : IsListing entries) (he : e ∈ entries) (hholds : Holds m e) :
    ∃ x, IsFirst m entries x :=
  (exists_first? h he hholds).imp fun _ => isFirst_of_first? h

/-! ## Configurations -/

theorem ofDirectory_of_isFirst (h : IsListing entries) (he : IsFirst m entries e)
    {content : ByteArray} (hcontent : e.content? = some content) :
    ofDirectory (some entries) m = .ok content := by
  simp [ofDirectory, (first?_filter_eq_some h).2 he, hcontent]

theorem ofDirectory_of_forall_not_holds (h : IsListing entries) (hnone : ∀ e ∈ entries, ¬Holds m e) :
    ofDirectory (some entries) m = .error (.notFound m) := by
  have hempty : entries.filter (isNamed m) = [] := by
    rw [List.eq_nil_iff_forall_not_mem]
    intro e he
    obtain ⟨hmem, hholds⟩ := h.mem_filter.1 he
    exact hnone e hmem hholds
  simp [ofDirectory, hempty, first?]

/-- The first entry has a say. -/
theorem IsFirst.not_passedOver (h : IsListing entries) (he : IsFirst m entries e) :
    ¬PassedOver m entries e := by
  rintro (hnot | ⟨x, hx, hlt⟩)
  · exact hnot he.holds
  · rw [he.unique h hx] at hlt
    exact List.lt_irrefl _ hlt

/-- **Entries without a say** do not change which entry is the first. -/
theorem IsFirst.of_passedOver (h : IsListing entries) (he : IsFirst m entries e)
    (hagree : ∀ x, PassedOver m entries x ∨ (x ∈ entries ↔ x ∈ entries')) :
    IsFirst m entries' e := by
  refine ⟨((hagree e).resolve_left (he.not_passedOver h)).1 he.mem, he.holds, fun x hx hholds => ?_⟩
  rcases hagree x with (hnot | ⟨y, hy, hlt⟩) | hiff
  · exact absurd hholds hnot
  · rw [he.unique h hy]
    exact List.le_of_lt hlt
  · exact he.least x (hiff.2 hx) hholds

/-- If no entry holds the configuration of a module, none does that entries without a
    say are added to or taken from. -/
theorem not_holds_of_passedOver (hnone : ∀ e ∈ entries, ¬Holds m e)
    (hagree : ∀ x, PassedOver m entries x ∨ (x ∈ entries ↔ x ∈ entries')) :
    ∀ e ∈ entries', ¬Holds m e := by
  intro e he hholds
  rcases hagree e with (hnot | ⟨x, hx, -⟩) | hiff
  · exact hnot hholds
  · exact hnone x hx.mem hx.holds
  · exact hnone e (hiff.2 he) hholds

theorem ofDirectory_of_passedOver (h : IsListing entries) (h' : IsListing entries')
    (hagree : ∀ x, PassedOver m entries x ∨ (x ∈ entries ↔ x ∈ entries')) :
    ofDirectory (some entries') m = ofDirectory (some entries) m := by
  by_cases hsome : ∃ e ∈ entries, Holds m e
  · obtain ⟨x, hx, hholds⟩ := hsome
    obtain ⟨e, he⟩ := exists_isFirst h hx hholds
    obtain ⟨content, hcontent⟩ := Option.isSome_iff_exists.1 he.holds.1
    rw [ofDirectory_of_isFirst h he hcontent,
      ofDirectory_of_isFirst h' (he.of_passedOver h hagree) hcontent]
  · have hnone : ∀ e ∈ entries, ¬Holds m e := fun e he hholds => hsome ⟨e, he, hholds⟩
    rw [ofDirectory_of_forall_not_holds h hnone,
      ofDirectory_of_forall_not_holds h' (not_holds_of_passedOver hnone hagree)]

/-- **A module has its configuration from the first entry** that holds one, and none only
    if no entry does; in whatever order the entries are listed, and whatever entries
    without a say are added, changed or taken away. -/
theorem configured_by_first (h : IsListing entries) (m : String) :
    ((∃ e ∈ entries, Holds m e) → ∃ e content, IsFirst m entries e ∧
      (∀ x, IsFirst m entries x → x = e) ∧ e.content? = some content ∧
        ofDirectory (some entries) m = .ok content) ∧
      (ofDirectory (some entries) m = .error (.notFound m) ↔ ∀ e ∈ entries, ¬Holds m e) ∧
      (∀ {entries'}, entries.Perm entries' →
        ofDirectory (some entries') m = ofDirectory (some entries) m) ∧
      ∀ {entries'}, IsListing entries' →
        (∀ x, PassedOver m entries x ∨ (x ∈ entries ↔ x ∈ entries')) →
          ofDirectory (some entries') m = ofDirectory (some entries) m := by
  have hfound : (∃ e ∈ entries, Holds m e) → ∃ e content, IsFirst m entries e ∧
      (∀ x, IsFirst m entries x → x = e) ∧ e.content? = some content ∧
        ofDirectory (some entries) m = .ok content := by
    rintro ⟨x, hx, hholds⟩
    obtain ⟨e, he⟩ := exists_isFirst h hx hholds
    obtain ⟨content, hcontent⟩ := Option.isSome_iff_exists.1 he.holds.1
    exact ⟨e, content, he, fun y hy => hy.unique h he, hcontent,
      ofDirectory_of_isFirst h he hcontent⟩
  refine ⟨hfound, ⟨fun hnone e he hholds => ?_, ofDirectory_of_forall_not_holds h⟩,
    fun hperm => ?_, ofDirectory_of_passedOver h⟩
  · obtain ⟨_, content, -, -, -, hok⟩ := hfound ⟨e, he, hholds⟩
    rw [hok] at hnone
    cases hnone
  · exact ofDirectory_of_passedOver h (h.perm hperm) fun x => .inr hperm.mem_iff

/-- A directory with two configurations of a module, a hidden file and a folder. -/
def drawer : List DirectoryEntry :=
  [⟨"m.toml".toUTF8, some "small".toUTF8⟩, ⟨"M.x".toUTF8, some "capital".toUTF8⟩,
    ⟨".m".toUTF8, some "hidden".toUTF8⟩, ⟨"M".toUTF8, none⟩]

theorem configured_by_first_capital : IsListing drawer ∧
    ofDirectory (some drawer) "m" = .ok "capital".toUTF8 ∧
    ofDirectory (some drawer.reverse) "m" = .ok "capital".toUTF8 ∧
    ∃ e, IsFirst "m" drawer e ∧ e.content? = some "capital".toUTF8 := by
  have h : IsListing drawer := by decide
  have hanswer : ofDirectory (some drawer) "m" = .ok "capital".toUTF8 := by decide +kernel
  obtain ⟨hfound, hnone, hperm, -⟩ := configured_by_first h "m"
  have hsome : ∃ e ∈ drawer, Holds "m" e := by
    by_contra hnot
    rw [hnone.2 fun e he hholds => hnot ⟨e, he, hholds⟩] at hanswer
    cases hanswer
  obtain ⟨e, content, he, -, hcontent, hok⟩ := hfound hsome
  rw [hanswer] at hok
  cases hok
  exact ⟨h, hanswer, (hperm (List.reverse_perm _).symm).trans hanswer, e, he, hcontent⟩

end Resolver

end Reactor
