/-
  The sections of a configuration, written and read.

  * `defaults` are the entries of a section that hold its defaults, and `Trimmed`
    says that of some sections such entries are left out, or a section of such
    entries as a whole; in `ownSections` all of them are;
  * `Fits` says that the numbers of a configuration can be read;
  * `reads_general` and those after it: each section is read from its entries;
  * `form_of_trimmed`: so a configuration is read from its sections, however much
    of its defaults is left out.
-/
import Reactor.Config.File
import Reactor.Proofs.Toml.File
import Reactor.Proofs.Toml.Records

namespace Reactor.Config

open Toml (Thinned Value)
open Toml.Decoder (Reads list_texts natural_of_lt reads_record record_thinned takeEntry_field)
open Toml.Writer (Item Section_)

/-! ## Leaving out -/

/-- The entries of the section with a name. -/
def entriesOf (ss : List Section_) (name : String) : List (String × Item) :=
  (ss.filter (·.name = name)).flatMap (·.entries)

/-- The entries of a section that hold its defaults. -/
def defaults (name : String) : List (String × Item) := entriesOf standard.sections name

/-- A section all of whose entries hold defaults. -/
def IsStandard (s : Section_) : Prop := ∀ e ∈ s.entries, e ∈ defaults s.name

/-- Sections of which entries are left out that hold defaults, and then sections that
    hold nothing else; `es` are the entries that a section keeps. -/
def Trimmed (ss ts : List Section_) : Prop :=
  ∃ es : String → List (String × Item),
    (∀ s ∈ ss, Thinned (· ∈ defaults s.name) s.entries (es s.name)) ∧
      Thinned IsStandard (ss.map fun s => ⟨s.name, es s.name⟩) ts

/-- A configuration of which nothing is left out. -/
theorem trimmed_refl (c : Config) : Trimmed c.sections c.sections := by
  refine ⟨entriesOf c.sections, ?_, .refl _ _⟩
  simp only [sections, List.forall_mem_cons]
  exact ⟨.refl _ _, .refl _ _, .refl _ _, .refl _ _, .refl _ _, .refl _ _, List.forall_mem_nil _⟩

/-- The entries of a section that do not hold its defaults. -/
def own (s : Section_) : List (String × Item) := s.entries.filter (· ∉ defaults s.name)

/-- The sections of a configuration without all that is left at its default. -/
def ownSections (c : Config) : List Section_ :=
  (c.sections.map fun s => ⟨s.name, own s⟩).filter (·.entries ≠ [])

/-- A configuration of which all defaults are left out. -/
theorem trimmed_ownSections (c : Config) : Trimmed c.sections c.ownSections := by
  refine ⟨fun name => own ⟨name, entriesOf c.sections name⟩, ?_, .filter ?_ _⟩
  · have hown : ∀ s ∈ c.sections, own ⟨s.name, entriesOf c.sections s.name⟩ = own s := by
      simp only [sections, List.forall_mem_cons]
      exact ⟨rfl, rfl, rfl, rfl, rfl, rfl, List.forall_mem_nil _⟩
    intro s hs
    dsimp only
    rw [hown s hs]
    exact .filter (fun e he => by simpa using he) _
  · intro s hs e he
    have hempty : s.entries = [] := by simpa using hs
    rw [hempty] at he
    cases he

/-! ## One section -/

/-- The numbers of a configuration can be read: they are below the bounds of their
    forms, and have no more than 63 bits. -/
structure Fits (c : Config) : Prop where
  bufferSize : c.general.bufferSize < Word.count 63
  instructions : c.script.instructions < Word.count 32
  memory : c.script.memory < Word.count 63

/-- An entry of a section, and what it puts in its place. -/
abbrev Put (σ : Type) := (String × Value) × (σ → σ)

/-- The entries of `general`. -/
def General.puts (x : General) : List (Put General) :=
  [(("log_level", .text x.logLevel), fun s => { s with logLevel := x.logLevel }),
    (("log_format", .text x.logFormat.word), fun s => { s with logFormat := x.logFormat }),
    (("events_buffer_size", .int x.bufferSize), fun s => { s with bufferSize := x.bufferSize })]

/-- The entries of `modules`. -/
def Modules.puts (x : Modules) : List (Put Modules) :=
  [(("event_sources", .array (x.sources.map .text)), fun s => { s with sources := x.sources }),
    (("action_modules", .array (x.actions.map .text)), fun s => { s with actions := x.actions })]

/-- The entries of `config_provider`. -/
def Provider.puts (x : Provider) : List (Put Provider) :=
  [(("provider", .text x.kind.word), fun s => { s with kind := x.kind }),
    (("path", .text x.path), fun s => { s with path := x.path })]

/-- The entries of `storage`. -/
def Persistence.puts (x : Persistence) : List (Put Persistence) :=
  [(("provider", .text x.kind.word), fun s => { s with kind := x.kind }),
    (("path", .text x.path), fun s => { s with path := x.path })]

/-- The entries of `script`. -/
def limitsPuts (x : Script.Limits) : List (Put Script.Limits) :=
  [(("instruction_limit", .int x.instructions), fun s => { s with instructions := x.instructions }),
    (("memory_limit", .int x.memory), fun s => { s with memory := x.memory })]

/-- The entries of `api`. -/
def Api.puts (x : Api) : List (Put Api) :=
  [(("enabled", .bool x.enabled), fun s => { s with enabled := x.enabled }),
    (("bind_address", .text x.bindAddress), fun s => { s with bindAddress := x.bindAddress })]

/-- The entries of a section in a file. -/
def valuesOf (es : List (String × Item)) : Toml.Entries := es.map fun e => (e.1, e.2.toValue)

theorem lt_count_64 {n : Nat} (h : n < Word.count 63) : n < Word.count 64 :=
  h.trans (Nat.pow_lt_pow_right (by decide) (by decide))

theorem reads_general {x : General} (h : x.bufferSize < Word.count 63) :
    Reads generalForm {} (valuesOf (defaults "general")) (x.puts.map Prod.fst) x := by
  refine reads_record (fun y => y.bufferSize < Word.count 63) General.puts
    (fun {y} hy => ⟨?_, by simp [General.puts]⟩) rfl (by simp [General.puts]) (by decide) h _
  simp only [General.puts, List.forall_mem_cons]
  refine ⟨fun _ => takeEntry_field rfl rfl rfl, fun _ => takeEntry_field rfl ?_ rfl,
    fun _ => takeEntry_field rfl ?_ rfl, List.forall_mem_nil _⟩
  · cases y.logFormat <;> rfl
  · exact natural_of_lt (lt_count_64 hy) _

theorem reads_modules (x : Modules) :
    Reads modulesForm {} (valuesOf (defaults "modules")) (x.puts.map Prod.fst) x := by
  refine reads_record (fun _ => True) Modules.puts
    (fun {y} _ => ⟨?_, by simp [Modules.puts]⟩) rfl (by simp [Modules.puts]) trivial trivial _
  simp only [Modules.puts, List.forall_mem_cons]
  exact ⟨fun _ => takeEntry_field rfl (list_texts _) rfl,
    fun _ => takeEntry_field rfl (list_texts _) rfl, List.forall_mem_nil _⟩

theorem reads_provider (x : Provider) :
    Reads providerForm {} (valuesOf (defaults "config_provider")) (x.puts.map Prod.fst) x := by
  refine reads_record (fun _ => True) Provider.puts
    (fun {y} _ => ⟨?_, by simp [Provider.puts]⟩) rfl (by simp [Provider.puts]) trivial trivial _
  simp only [Provider.puts, List.forall_mem_cons]
  refine ⟨fun _ => takeEntry_field rfl ?_ rfl, fun _ => takeEntry_field rfl rfl rfl,
    List.forall_mem_nil _⟩
  cases y.kind <;> rfl

theorem reads_storage (x : Persistence) :
    Reads storageForm {} (valuesOf (defaults "storage")) (x.puts.map Prod.fst) x := by
  refine reads_record (fun _ => True) Persistence.puts
    (fun {y} _ => ⟨?_, by simp [Persistence.puts]⟩) rfl (by simp [Persistence.puts]) trivial
    trivial _
  simp only [Persistence.puts, List.forall_mem_cons]
  refine ⟨fun _ => takeEntry_field rfl ?_ rfl, fun _ => takeEntry_field rfl rfl rfl,
    List.forall_mem_nil _⟩
  cases y.kind <;> rfl

theorem reads_script {x : Script.Limits} (hi : x.instructions < Word.count 32)
    (hm : x.memory < Word.count 63) :
    Reads scriptForm .standard (valuesOf (defaults "script")) ((limitsPuts x).map Prod.fst) x := by
  refine reads_record (fun y => y.instructions < Word.count 32 ∧ y.memory < Word.count 63)
    limitsPuts (fun {y} hy => ⟨?_, by simp [limitsPuts]⟩) rfl (by simp [limitsPuts]) (by decide)
    ⟨hi, hm⟩ _
  simp only [limitsPuts, List.forall_mem_cons]
  exact ⟨fun _ => takeEntry_field rfl (natural_of_lt hy.1 _) rfl,
    fun _ => takeEntry_field rfl (natural_of_lt (lt_count_64 hy.2) _) rfl, List.forall_mem_nil _⟩

theorem reads_api (x : Api) :
    Reads apiForm {} (valuesOf (defaults "api")) (x.puts.map Prod.fst) x := by
  refine reads_record (fun _ => True) Api.puts
    (fun {y} _ => ⟨?_, by simp [Api.puts]⟩) rfl (by simp [Api.puts]) trivial trivial _
  simp only [Api.puts, List.forall_mem_cons]
  exact ⟨fun _ => takeEntry_field rfl rfl rfl, fun _ => takeEntry_field rfl rfl rfl,
    List.forall_mem_nil _⟩

/-! ## All sections -/

/-- The sections of a configuration with some entries. -/
def puts (c : Config) (es : String → List (String × Item)) : List (Put Config) :=
  let table (name : String) := (name, Value.table .header (valuesOf (es name)))
  [(table "general", fun s => { s with general := c.general }),
    (table "modules", fun s => { s with modules := c.modules }),
    (table "config_provider", fun s => { s with provider := c.provider }),
    (table "storage", fun s => { s with storage := c.storage }),
    (table "script", fun s => { s with script := c.script }),
    (table "api", fun s => { s with api := c.api })]

theorem mem_valuesOf {es held : List (String × Item)} (h : ∀ e ∈ es, e ∈ held) :
    ∀ e ∈ valuesOf es, e ∈ valuesOf held := by
  intro e he
  obtain ⟨e', he', rfl⟩ := List.mem_map.1 he
  exact List.mem_map_of_mem (h e' he')

theorem thinned_valuesOf {es es' held : List (String × Item)} (h : Thinned (· ∈ held) es es') :
    Thinned (· ∈ valuesOf held) (valuesOf es) (valuesOf es') :=
  h.map fun _ he => List.mem_map_of_mem he

/-- **A configuration is read from its sections**, however much of its defaults is left
    out. -/
theorem form_of_trimmed {c : Config} (hc : c.Fits) {ts : List Section_}
    (h : Trimmed c.sections ts) : form (.table .header (ts.map Section_.toEntry)) = .ok c := by
  obtain ⟨es, hes, hts⟩ := h
  have hthinned : Thinned (fun e => ∃ s, IsStandard s ∧ s.toEntry = e) ((c.puts es).map Prod.fst)
      (ts.map Section_.toEntry) :=
    Thinned.map (f := Section_.toEntry) hts fun s hs => ⟨s, hs, rfl⟩
  refine record_thinned ⟨?_, ?_⟩ ?_ hthinned _ _
  · simp only [sections, List.forall_mem_cons] at hes
    obtain ⟨hgeneral, hmodules, hprovider, hstorage, hscript, hapi, -⟩ := hes
    simp only [puts, List.forall_mem_cons]
    exact ⟨fun _ => takeEntry_field rfl
        ((reads_general hc.bufferSize).thinned (thinned_valuesOf hgeneral)) rfl,
      fun _ => takeEntry_field rfl ((reads_modules _).thinned (thinned_valuesOf hmodules)) rfl,
      fun _ => takeEntry_field rfl ((reads_provider _).thinned (thinned_valuesOf hprovider)) rfl,
      fun _ => takeEntry_field rfl ((reads_storage _).thinned (thinned_valuesOf hstorage)) rfl,
      fun _ => takeEntry_field rfl
        ((reads_script hc.instructions hc.memory).thinned (thinned_valuesOf hscript)) rfl,
      fun _ => takeEntry_field rfl ((reads_api _).thinned (thinned_valuesOf hapi)) rfl,
      List.forall_mem_nil _⟩
  · simp [puts]
  · rintro _ he ⟨⟨name, es'⟩, hstandard, rfl⟩
    have hname : name ∈ ((c.puts es).map Prod.fst).map Prod.fst := List.mem_map_of_mem he
    have hheld : ∀ e ∈ valuesOf es', e ∈ valuesOf (defaults name) := mem_valuesOf hstandard
    simp only [puts, List.map_cons, List.map_nil, List.mem_cons, List.not_mem_nil, or_false]
      at hname
    rcases hname with rfl | rfl | rfl | rfl | rfl | rfl
    · exact takeEntry_field rfl ((reads_general (x := {}) (by decide)).standard hheld) rfl
    · exact takeEntry_field rfl ((reads_modules {}).standard hheld) rfl
    · exact takeEntry_field rfl ((reads_provider {}).standard hheld) rfl
    · exact takeEntry_field rfl ((reads_storage {}).standard hheld) rfl
    · exact takeEntry_field rfl
        ((reads_script (x := .standard) (by decide) (by decide)).standard hheld) rfl
    · exact takeEntry_field rfl ((reads_api {}).standard hheld) rfl

end Reactor.Config
