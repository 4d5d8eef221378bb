/-
  The fields that records are made of.

  * `Slot.plain` holds a text, a number or an object, `Slot.list` a list of records and
    `Slot.table` records by name;
  * `Slot.Sound`: what a field holds is read from each of its texts; `Slot.Strict`: what
    is read is all of its text, and flawed texts are refused;
  * `Layout.own`: a value is laid out by the compact text of its JSON;
  * `faithful`: a value is read from its own text and from all that lay it out;
    `refusesFaulty`: faulty texts are refused.
-/
import Reactor.Proofs.Json.Compact
import Reactor.Proofs.Json.Members

namespace Reactor.Json

open Reader Decoder
open Phrase (Written ends_nil)

variable {α β : Type}

/-! ## Fields and records -/

/-- What a field holds is read from each of its texts, its own among them. -/
structure Slot.Sound (s : Slot α) (a : α) (depth : Nat) : Prop where
  own : s.Spells a (s.json a).phrase
  wellFormed : (s.json a).phrase.WellFormed
  reads : ∀ t, s.Spells a t → Reads s.read depth t (s.json a)

/-- What is read for a field is all of its text, which has no flaw. -/
structure Slot.Strict (s : Slot α) : Prop where
  exact : Exact s.read
  refuses : ∀ t, t.WellFormed → s.Flawed t → Refuses s.read t

/-- The fields of a value are sound. -/
def Layout.Sound (L : Layout α) (a : α) (depth : Nat) : Prop := ∀ s ∈ L.slots, s.Sound a depth

/-- The fields of a record are strict, and none shares a name. -/
structure Layout.Strict (L : Layout α) : Prop where
  distinct : L.Distinct
  slots : ∀ s ∈ L.slots, s.Strict

namespace Layout

variable {L : Layout α} {a : α} {depth : Nat}

theorem Distinct.nodup (hd : L.Distinct) : (L.slots.map (·.name)).Nodup := by
  refine List.pairwise_map.2 ((List.nodup_flatMap.1 hd).2.imp fun hdisjoint heq => ?_)
  exact hdisjoint List.mem_cons_self (heq ▸ List.mem_cons_self)

theorem phrase_toJson (L : Layout α) (a : α) :
    (L.toJson a).phrase = .object (L.slots.map fun s => (escaped s.name, (s.json a).phrase)) := by
  show Phrase.object (memberPhrases (L.slots.map fun s => (s.name, s.json a))) = _
  rw [memberPhrases_eq, List.map_map]
  rfl

theorem names_escaped {s s' : Slot α} (hd : L.Distinct) (hs : s ∈ L.slots) (hs' : s' ∈ L.slots)
    (h : s.Names (escaped s'.name)) : s = s' :=
  hd.unique_names hs hs' h ⟨s'.name, isNamed_name s'.toField, denotes_escaped s'.name⟩

/-- **A value is laid out by its own text.** -/
theorem own (hd : L.Distinct) (hsound : L.Sound a depth) : L.Lays a (L.toJson a).phrase := by
  rw [phrase_toJson]
  refine .intro (List.forall_mem_map.2 fun s _ => ⟨s.name, denotes_escaped s.name⟩)
    (List.forall_mem_map.2 fun s hs => (hsound s hs).wellFormed)
    (List.forall_mem_map.2 fun s hs s' hs' hnames => ?_) (fun s hs => ?_) (fun s hs => ?_)
  · exact names_escaped hd hs' hs hnames ▸ (hsound s' hs').own
  · refine once_iff.2 (List.pairwise_map.2 ?_)
    refine (List.pairwise_map.1 hd.nodup).imp_of_mem fun hs₁ hs₂ hne hnames => hne ?_
    rw [← names_escaped hd hs hs₁ hnames.1, ← names_escaped hd hs hs₂ hnames.2]
  · exact .inl ⟨_, List.mem_map_of_mem hs,
      ⟨s.name, isNamed_name s.toField, denotes_escaped s.name⟩⟩

theorem Lays.wellFormed {t : Phrase} (h : L.Lays a t) : t.WellFormed := by
  cases h with
  | intro named wellFormed =>
    refine .object (fun m hm => ?_) wellFormed
    obtain ⟨n, hn⟩ := named m hm
    exact hn.inner

theorem reads_form (hd : L.Distinct) (hsound : L.Sound a depth) {t : Phrase} (ht : L.Lays a t) :
    Reads L.form (depth + 1) t (L.toJson a) :=
  reads_record hd (fun s hs => (hsound s hs).reads) ht

theorem Strict.exact (h : L.Strict) : Exact L.form :=
  exact_record h.distinct fun s hs => (h.slots s hs).exact

theorem Strict.refuses (h : L.Strict) {t : Phrase} (ht : t.WellFormed) (hfaulty : L.Faulty t) :
    Refuses L.form t :=
  refuses_record h.distinct (fun s hs => (h.slots s hs).exact)
    (fun s hs => (h.slots s hs).refuses) ht hfaulty

end Layout

/-! ## Plain fields -/

namespace Slot

variable {f : Field} {a : α} {depth : Nat}

/-- A field that holds a plain value. -/
def plain (f : Field) (json : α → Json) : Slot α where
  toField := f
  json := json
  Spells a t := Json.Spells (json a) t
  Flawed _ := False

theorem sound_plain {json : α → Json} (hfree : FloatFree (json a))
    (hreads : ∀ t, Json.Spells (json a) t → Reads f.read depth t (json a)) :
    (plain f json).Sound a depth :=
  ⟨spells_phrase hfree, (spells_phrase hfree).wellFormed, hreads⟩

theorem strict_plain {json : α → Json} (h : Exact f.read) : (plain f json).Strict :=
  ⟨h, fun _ _ => False.elim⟩

theorem strict_text (hf : f.read = text) {json : α → Json} : (plain f json).Strict :=
  strict_plain (by rw [hf]; exact exact_text)

theorem strict_natural (hf : f.read = natural) {json : α → Json} : (plain f json).Strict :=
  strict_plain (by rw [hf]; exact exact_natural)

theorem strict_object (hf : f.read = object) {json : α → Json} : (plain f json).Strict :=
  strict_plain (by rw [hf]; exact exact_object)

theorem sound_text (hf : f.read = text) (get : α → String) :
    (plain f fun a => .str (get a)).Sound a depth := by
  refine sound_plain (.str _) fun t ht => ?_
  cases ht with
  | str hs => exact hf ▸ reads_text hs

theorem sound_natural (hf : f.read = natural) (get : α → UInt64) :
    (plain f fun a => .nat (get a).toNat).Sound a depth := by
  refine sound_plain (.int _) fun t ht => ?_
  cases ht with
  | int => exact hf ▸ reads_natural (get a).toNat_lt

theorem sound_object (hf : f.read = object) {get : α → Payload} (hproper : (Json.obj (get a)).Proper)
    (hfree : FloatFree (.obj (get a))) (hdepth : (Json.obj (get a)).depth ≤ depth) :
    (plain f fun a => .obj (get a)).Sound a depth :=
  sound_plain hfree fun _ ht => hf ▸ reads_object ht hproper hdepth

/-! ## Lists of records -/

/-- A field that holds a list of records. -/
def list (name : String) (L : Layout β) (get : α → List β) : Slot α where
  toField := required name (.list L.form)
  json a := .arr ((get a).map L.toJson)
  Spells a t := ∃ ts, t = .list ts ∧ List.Forall₂ L.Lays (get a) ts
  Flawed t := ∃ ts, t = .list ts ∧ ∃ t ∈ ts, L.Faulty t

variable {name : String} {L : Layout β}

theorem sound_list {get : α → List β} (hd : L.Distinct) (h : ∀ b ∈ get a, L.Sound b depth) :
    (list name L get).Sound a (depth + 2) := by
  have hown : List.Forall₂ L.Lays (get a) ((get a).map fun b => (L.toJson b).phrase) :=
    List.forall₂_map_right_iff.2 (List.forall₂_same.2 fun b hb => Layout.own hd (h b hb))
  have hphrase : ((list name L get).json a).phrase =
      .list ((get a).map fun b => (L.toJson b).phrase) := by
    show Phrase.list (itemPhrases _) = _
    rw [itemPhrases_eq, List.map_map]
    rfl
  refine ⟨⟨_, hphrase, hown⟩, ?_, ?_⟩
  · rw [hphrase]
    exact .list (forall_of_forall₂ hown Layout.Lays.wellFormed)
  · rintro t ⟨ts, rfl, hts⟩
    have hreads : List.Forall₂ (fun b t => Reads L.form (depth + 1) t (L.toJson b)) (get a) ts :=
      forall₂_of_mem hts fun b hb _ => Layout.reads_form hd (h b hb)
    show Reads (.list L.form) (depth + 1 + 1) (.list ts) (.arr ((get a).map L.toJson))
    exact reads_list (forall_of_forall₂ hts Layout.Lays.wellFormed)
      (List.forall₂_map_right_iff.2 hreads.flip)

theorem strict_list {get : α → List β} (h : L.Strict) : (list name L get).Strict := by
  refine ⟨exact_list h.exact, ?_⟩
  rintro t ht ⟨ts, rfl, t, hmem, hfaulty⟩
  cases ht with
  | list hwf => exact refuses_list h.exact hwf hmem (h.refuses (hwf t hmem) hfaulty)

/-! ## Tables of records -/

/-- A field that holds records by name, and may be missing. -/
def table (name : String) (aliases : List String) (L : Layout β) (get : α → Fields β) : Slot α where
  toField := ⟨name, aliases, some (.obj []), .table L.form⟩
  json a := .obj ((get a).map fun f => (f.1, L.toJson f.2))
  Spells a t := ∃ fs ms, t = .object ms ∧ fs.Perm (get a) ∧
    List.Forall₂ (fun f (m : List Char × Phrase) => Denotes m.1 f.1.toList ∧ L.Lays f.2 m.2) fs ms
  Flawed t := ∃ ms, t = .object ms ∧ ∃ m ∈ ms, L.Faulty m.2

variable {aliases : List String}

theorem sound_table {get : α → Fields β} (hsorted : (get a).Sorted) (hd : L.Distinct)
    (h : ∀ f ∈ get a, L.Sound f.2 depth) : (table name aliases L get).Sound a (depth + 2) := by
  have hown : List.Forall₂ (fun (f : String × β) (m : List Char × Phrase) =>
      Denotes m.1 f.1.toList ∧ L.Lays f.2 m.2) (get a)
      ((get a).map fun f => (escaped f.1, (L.toJson f.2).phrase)) :=
    List.forall₂_map_right_iff.2 (List.forall₂_same.2 fun f hf =>
      ⟨denotes_escaped f.1, Layout.own hd (h f hf)⟩)
  have hphrase : ((table name aliases L get).json a).phrase =
      .object ((get a).map fun f => (escaped f.1, (L.toJson f.2).phrase)) := by
    show Phrase.object (memberPhrases _) = _
    rw [memberPhrases_eq, List.map_map]
    rfl
  refine ⟨⟨_, _, hphrase, .refl _, hown⟩, ?_, ?_⟩
  · rw [hphrase]
    exact .object (forall_of_forall₂ hown fun hm => hm.1.inner)
      (forall_of_forall₂ hown fun hm => hm.2.wellFormed)
  · rintro t ⟨fs, ms, rfl, hperm, hms⟩
    have hreads : List.Forall₂ (fun (f : String × β) (m : List Char × Phrase) =>
        Denotes m.1 f.1.toList ∧ Reads L.form (depth + 1) m.2 (L.toJson f.2)) fs ms :=
      forall₂_of_mem hms fun f hf _ hm =>
        ⟨hm.1, Layout.reads_form hd (h f (hperm.mem_iff.1 hf)) hm.2⟩
    show Reads (.table L.form) (depth + 1 + 1) (.object ms)
      (.obj ((get a).map fun f => (f.1, L.toJson f.2)))
    exact reads_table (hsorted.map (g := fun _ b => L.toJson b)) (hperm.map _)
      (List.forall₂_map_left_iff.2 hreads)

theorem strict_table {get : α → Fields β} (h : L.Strict) : (table name aliases L get).Strict := by
  refine ⟨exact_table h.exact, ?_⟩
  rintro t ht ⟨ms, rfl, m, hmem, hfaulty⟩
  cases ht with
  | object hnames hwf =>
    exact refuses_table h.exact hnames hwf hmem (h.refuses (hwf m hmem) hfaulty)

end Slot

/-! ## Whole texts -/

section

variable {d : Decoder α} {t : Phrase} {text : String} {a : α}

theorem decode_of_reads (h : Reads d maxDepth t a) (ht : Written t text) :
    decode d text = .ok a := by
  obtain ⟨r, hr, hrest⟩ := h ends_nil (by rwa [List.append_nil])
  rw [decode, whole, hr]
  simp only [Except.ok_bind, hrest.end]

theorem decode_of_refuses (h : Refuses d t) (ht : Written t text) :
    ∃ e, decode d text = .error e := by
  cases hread : d maxDepth text.toList with
  | error e =>
    refine ⟨e, ?_⟩
    rw [decode, whole, hread]
    rfl
  | ok x => exact absurd hread (h ends_nil (by rwa [List.append_nil]) x)

end

/-- A value is decoded from its own text and from all that lay it out. -/
structure Faithful (L : Layout α) (decode : String → Except ReadError α) (j : Json) (a : α) : Prop where
  encoded : decode j.compress = .ok a
  own : L.Lays a j.phrase ∧ Written j.phrase j.compress
  laid {t : Phrase} {text : String} : L.Lays a t → Written t text → decode text = .ok a

/-- No value is decoded from a text that gives a field twice, or not at all. -/
def RefusesFaulty (L : Layout α) (decode : String → Except ReadError α) : Prop :=
  ∀ {t : Phrase} {text : String}, t.WellFormed → L.Faulty t → Written t text →
    ∃ e, decode text = .error e

variable {L : Layout α} {decode : String → Except ReadError α} {ofJson : Json → α} {a : α}

/-- **A record is decoded faithfully** if its fields are sound. -/
theorem faithful (hdecode : ∀ text, decode text = (Json.decode L.form text).map ofJson)
    (hofJson : ofJson (L.toJson a) = a) (hd : L.Distinct) (hsound : L.Sound a 126) :
    Faithful L decode (L.toJson a) a := by
  have hown := Layout.own hd hsound
  have hlaid {t : Phrase} {text : String} (ht : L.Lays a t) (hw : Written t text) :
      decode text = .ok a := by
    have hreads : Reads L.form maxDepth t (L.toJson a) := Layout.reads_form hd hsound ht
    rw [hdecode, decode_of_reads hreads hw]
    exact congrArg Except.ok hofJson
  have hw := written_phrase hown.wellFormed
  exact ⟨hlaid hown hw, ⟨hown, hw⟩, hlaid⟩

/-- **Faulty records are refused** if their fields are strict. -/
theorem refusesFaulty (hdecode : ∀ text, decode text = (Json.decode L.form text).map ofJson)
    (hstrict : L.Strict) : RefusesFaulty L decode := by
  intro t text ht hfaulty hw
  obtain ⟨e, he⟩ := decode_of_refuses (hstrict.refuses ht hfaulty) hw
  exact ⟨e, by rw [hdecode, he]; rfl⟩

end Reactor.Json
