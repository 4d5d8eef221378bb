/-
  Configurations that are saved and loaded.

  * `Accepted` are the default and what is loaded from a file; by `Accepted.fits` their
    numbers can be written and read again;
  * `override_override`: what the command line asks for is asked for once;
  * `ofBytes_of_laid`: a configuration is read from the text of its sections, also if
    defaults are left out, as in `brief`;
  * `survives_save`: so it survives a save.
-/
import Reactor.CommandLine
import Reactor.Proofs.Config.Sections
import Reactor.Proofs.Folder
import Reactor.Proofs.Text.Order
import Reactor.Proofs.Toml.Bounds

namespace Reactor.Config

open CommandLine (Arguments)
open Startup (load save)
open Toml (Bare Laid Readable)
open Toml.Decoder (keeps_field natural_lt record_keeps)
open Toml.Writer (Section_)

variable {c : Config}

/-! ## Accepted configurations -/

/-- The default, and what is loaded from a file of some folder. -/
inductive Accepted : Config → Prop
  | standard : Accepted .standard
  | loaded {f : Folder} {path : String} {c : Config} :
      (load Folder.disk path f).1 = .ok c → Accepted c

theorem fits_standard : standard.Fits := ⟨by decide, by decide, by decide⟩

theorem bufferSize_of_generalForm {v : Toml.Value} (hv : v.Bounded) {x : General}
    (h : generalForm v = .ok x) : x.bufferSize < Word.count 63 := by
  refine record_keeps (P := fun x => x.bufferSize < Word.count 63) ?_ fits_standard.bufferSize hv h
  simp only [List.forall_mem_cons]
  exact ⟨keeps_field fun _ _ hs => hs, keeps_field fun _ _ hs => hs,
    keeps_field fun hv h _ => (natural_lt hv h).2, List.forall_mem_nil _⟩

theorem limits_of_scriptForm {v : Toml.Value} (hv : v.Bounded) {x : Script.Limits}
    (h : scriptForm v = .ok x) : x.instructions < Word.count 32 ∧ x.memory < Word.count 63 := by
  refine record_keeps (P := fun x => x.instructions < Word.count 32 ∧ x.memory < Word.count 63) ?_
    ⟨fits_standard.instructions, fits_standard.memory⟩ hv h
  simp only [List.forall_mem_cons]
  exact ⟨keeps_field fun hv h hs => ⟨(natural_lt hv h).1, hs.2⟩,
    keeps_field fun hv h hs => ⟨hs.1, (natural_lt hv h).2⟩, List.forall_mem_nil _⟩

/-- **The numbers that a file holds** can be written and read again. -/
theorem fits_of_form {v : Toml.Value} (hv : v.Bounded) (h : form v = .ok c) : c.Fits := by
  refine record_keeps (P := Fits) ?_ fits_standard hv h
  simp only [List.forall_mem_cons]
  exact ⟨keeps_field fun hv h hs => ⟨bufferSize_of_generalForm hv h, hs.instructions, hs.memory⟩,
    keeps_field fun _ _ hs => ⟨hs.bufferSize, hs.instructions, hs.memory⟩,
    keeps_field fun _ _ hs => ⟨hs.bufferSize, hs.instructions, hs.memory⟩,
    keeps_field fun _ _ hs => ⟨hs.bufferSize, hs.instructions, hs.memory⟩,
    keeps_field fun hv h hs =>
      ⟨hs.bufferSize, (limits_of_scriptForm hv h).1, (limits_of_scriptForm hv h).2⟩,
    keeps_field fun _ _ hs => ⟨hs.bufferSize, hs.instructions, hs.memory⟩, List.forall_mem_nil _⟩

theorem validate_eq_ok {d : Config} : c.validate = .ok d ↔ c.problem? = none ∧ c = d := by
  unfold validate
  cases c.problem? <;> simp

theorem exists_text_of_ofBytes {bytes : ByteArray} (h : ofBytes bytes = .ok c) :
    ∃ s, ofText s = .ok c ∧ c.problem? = none := by
  unfold ofBytes at h
  split at h
  · obtain ⟨d, hd, h⟩ := Except.bind_eq_ok.1 h
    obtain ⟨hnone, rfl⟩ := validate_eq_ok.1 h
    exact ⟨_, hd, hnone⟩
  · cases h

theorem fits_of_ofText {s : String} (h : ofText s = .ok c) : c.Fits := by
  unfold ofText at h
  split at h
  · cases h
  · rename_i es hes
    cases hform : form (.table .header es) with
    | error e =>
      rw [hform] at h
      cases h
    | ok d =>
      rw [hform] at h
      cases h
      exact fits_of_form (.table (Toml.bounded_of_read hes)) hform

/-- What is accepted can be written and read again, and its numbers are large enough. -/
theorem Accepted.fits (h : Accepted c) : c.Fits ∧ c.problem? = none := by
  cases h with
  | standard => exact ⟨fits_standard, by decide⟩
  | @loaded f path _ h =>
    rw [Startup.load_run] at h
    dsimp only at h
    split at h
    · obtain ⟨s, hs, hnone⟩ := exists_text_of_ofBytes h
      exact ⟨fits_of_ofText hs, hnone⟩
    · cases h

/-! ## The command line -/

theorem fits_override (a : Arguments) (h : c.Fits) : (a.override c).Fits :=
  ⟨h.bufferSize, h.instructions, h.memory⟩

theorem problem?_override (a : Arguments) (c : Config) : (a.override c).problem? = c.problem? := rfl

/-- **To ask twice for the same** is to ask once. -/
theorem override_override (a : Arguments) (c : Config) :
    a.override (a.override c) = a.override c := by
  obtain ⟨_, logLevel?, logFormat?, bind?, noApi, _⟩ := a
  cases logLevel? <;> cases logFormat? <;> cases bind? <;> cases noApi <;>
    simp [Arguments.override]

/-! ## Reading what was written -/

/-- The name and the keys of a section. -/
def keysOf (s : Section_) : String × List String := (s.name, s.entries.map Prod.fst)

/-- All configurations have the same keys. -/
theorem map_keysOf (c : Config) : c.sections.map keysOf = standard.sections.map keysOf := rfl

theorem bare_name : ∀ k ∈ standard.sections.map keysOf, Bare k.1 := by decide

theorem bare_keys : ∀ k ∈ standard.sections.map keysOf, ∀ key ∈ k.2, Bare key := by decide

theorem nodup_keys : ∀ k ∈ standard.sections.map keysOf, k.2.Nodup := by decide

theorem fits_items (h : c.Fits) : ∀ s ∈ c.sections, ∀ e ∈ s.entries, e.2.Fits := by
  have hinstructions : c.script.instructions < Word.count 63 :=
    h.instructions.trans (Nat.pow_lt_pow_right (by decide) (by decide))
  simp only [sections, List.forall_mem_cons, Toml.Writer.Item.Fits, h.bufferSize, hinstructions,
    h.memory]
  simp

/-- The sections of a configuration can be read. -/
theorem readable_sections (h : c.Fits) : Readable c.sections := by
  have hkeys : ∀ s ∈ c.sections, keysOf s ∈ standard.sections.map keysOf :=
    fun s hs => map_keysOf c ▸ List.mem_map_of_mem hs
  have hnames : c.sections.map (·.name) = (standard.sections.map keysOf).map Prod.fst := rfl
  refine ⟨fun s hs => ⟨bare_name _ (hkeys s hs), fun e he => ⟨?_, fits_items h s hs e he⟩⟩, ?_,
    fun s hs => nodup_keys _ (hkeys s hs)⟩
  · exact bare_keys _ (hkeys s hs) e.1 (List.mem_map_of_mem he)
  · rw [hnames]
    decide

theorem Trimmed.readable {ss ts : List Section_} (h : Trimmed ss ts) (hss : Readable ss) :
    Readable ts := by
  obtain ⟨es, hes, hts⟩ := h
  have hmem : ∀ t ∈ ts, ∃ s ∈ ss, t.name = s.name ∧ t.entries.Sublist s.entries := by
    intro t ht
    obtain ⟨s, hs, rfl⟩ := List.mem_map.1 (hts.sublist.subset ht)
    exact ⟨s, hs, rfl, (hes s hs).sublist⟩
  refine ⟨fun t ht => ?_, ?_, fun t ht => ?_⟩
  · obtain ⟨s, hs, hname, hsub⟩ := hmem t ht
    have hfits := hss.fits s hs
    exact ⟨hname ▸ hfits.name, fun e he => hfits.entries e (hsub.subset he)⟩
  · have hsub := hts.sublist.map (·.name)
    rw [List.map_map] at hsub
    exact hss.names.sublist hsub
  · obtain ⟨s, hs, -, hsub⟩ := hmem t ht
    exact (hss.keys s hs).sublist (hsub.map Prod.fst)

/-- The text of the sections of a configuration describes it, also if defaults are left
    out of it. -/
theorem ofBytes_laid {ts : List Section_} {text : String} (hc : c.Fits)
    (ht : Trimmed c.sections ts) (h : Laid ts text.toList) :
    ofBytes text.toUTF8 = c.validate := by
  have hread := Toml.read_laid h (ht.readable (readable_sections hc))
  have hof : ofText text = .ok c := by
    rw [ofText, hread]
    dsimp only
    rw [form_of_trimmed hc ht]
    rfl
  rw [ofBytes, Text.fromUTF8?_eq_some.2 rfl]
  dsimp only
  rw [hof, Except.ok_bind]

/-- **A configuration is read from the text of its sections**, also if defaults are left
    out of it. -/
theorem ofBytes_of_laid {ts : List Section_} {text : String} (hc : c.Fits)
    (hnone : c.problem? = none) (ht : Trimmed c.sections ts) (h : Laid ts text.toList) :
    ofBytes text.toUTF8 = .ok c := by
  rw [ofBytes_laid hc ht h, validate_eq_ok.2 ⟨hnone, rfl⟩]

/-- The text of a configuration without all that is left at its default. -/
def brief (c : Config) : String := Toml.Writer.file c.ownSections

theorem ofBytes_brief (hc : c.Fits) : ofBytes c.brief.toUTF8 = c.validate :=
  ofBytes_laid hc (trimmed_ownSections c) (Toml.laid_file _)

/-- **A configuration survives a save**, with whatever the command line asks for; and
    what is loaded is the same if defaults are left out of what was written. -/
theorem survives_save (hc : Accepted c) (a : Arguments) {f : Folder} {path : String}
    (hpath : f.Writable path) :
    (a.override c).validate = .ok (a.override c) ∧ a.override (a.override c) = a.override c ∧
      ∃ g, save Folder.disk (a.override c) path f = (.ok (), g) ∧
        load Folder.disk path g = (.ok (a.override c), g) ∧
        g.read path = .ok (a.override c).render.toUTF8 ∧
        Laid (a.override c).sections (a.override c).render.toList ∧
        ∀ {ts : List Section_} {text : String} {g' : Folder} {path' : String},
          Trimmed (a.override c).sections ts → Laid ts text.toList →
            g'.read path' = .ok text.toUTF8 →
              load Folder.disk path' g' = (.ok (a.override c), g') := by
  obtain ⟨hfits, hnone⟩ := hc.fits
  have hfits' := fits_override a hfits
  have hnone' := (problem?_override a c).trans hnone
  obtain ⟨g, hsave⟩ : ∃ g, save Folder.disk (a.override c) path f = (.ok (), g) :=
    ⟨_, Startup.save_eq_ok.2 ⟨hpath, rfl⟩⟩
  have hread := Startup.read_of_save hsave
  have hload : ∀ {ts : List Section_} {text : String} {g' : Folder} {path' : String},
      Trimmed (a.override c).sections ts → Laid ts text.toList → g'.read path' = .ok text.toUTF8 →
        load Folder.disk path' g' = (.ok (a.override c), g') := by
    intro ts text g' path' ht hlaid hread'
    rw [Startup.load_of_read hread', ofBytes_of_laid hfits' hnone' ht hlaid]
  exact ⟨validate_eq_ok.2 ⟨hnone', rfl⟩, override_override a c, g, hsave,
    hload (trimmed_refl _) (Toml.laid_file _) hread, hread, Toml.laid_file _, hload⟩

/-- A command line that asks for texts with quotes and controls. -/
def quotedArguments : Arguments where
  logLevel? := some "a\"b\\c\n'''\x01\r\t"
  bind? := some "\"\"\"\n'"
  noApi := true

/-- The default, changed by that command line. -/
def quoted : Config := quotedArguments.override .standard

/-- Its sections without the defaults. -/
def quotedSections : List Section_ :=
  [⟨"general", [("log_level", .text quoted.general.logLevel)]⟩,
    ⟨"api", [("enabled", .bool false), ("bind_address", .text quoted.api.bindAddress)]⟩]

theorem survives_save_quoted : Folder.Writable ⟨[], []⟩ "etc/reflex.toml" ∧
    (∃ g, save Folder.disk quoted "etc/reflex.toml" ⟨[], []⟩ = (.ok (), g) ∧
      load Folder.disk "etc/reflex.toml" g = (.ok quoted, g)) ∧
    (load Folder.disk "short.toml"
      ⟨[(Path.ofText "short.toml", (Toml.Writer.file quotedSections).toUTF8)], []⟩).1 =
        .ok quoted := by
  have hpath : Folder.Writable ⟨[], []⟩ "etc/reflex.toml" :=
    ⟨by decide, by decide, by decide⟩
  have htrimmed : Trimmed quoted.sections quotedSections := by
    refine ⟨entriesOf quotedSections, ?_, ?_⟩
    · simp only [sections, List.forall_mem_cons]
      exact ⟨.keep (.leave (by decide) (.leave (by decide) .nil)),
        .leave (by decide) (.leave (by decide) .nil), .leave (by decide) (.leave (by decide) .nil),
        .leave (by decide) (.leave (by decide) .nil), .leave (by decide) (.leave (by decide) .nil),
        .keep (.keep .nil), List.forall_mem_nil _⟩
    · exact .keep (.leave (List.forall_mem_nil _) (.leave (List.forall_mem_nil _)
        (.leave (List.forall_mem_nil _) (.leave (List.forall_mem_nil _) (.keep .nil)))))
  obtain ⟨-, -, g, hsave, hload, -, -, htrim⟩ := survives_save .standard quotedArguments hpath
  refine ⟨hpath, ⟨g, hsave, hload⟩, congrArg Prod.fst (htrim htrimmed (Toml.laid_file _) ?_)⟩
  rfl

end Reactor.Config
