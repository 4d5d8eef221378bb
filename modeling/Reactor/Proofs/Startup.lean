/-
  Starts of the service, and what they do with a file of the configuration.

  * `found` is the configuration in a file or the default, and `configure_run` says
    which of them a start has;
  * `start_of_writeConfig`: a start that is to write its configuration writes it, and
    ends;
  * `IsSpoilt` says that a file cannot be loaded, `Careful` what is expected of such a
    start, and `writes_carefully_iff` that only spoilt files are not dealt with so;
  * `Panics` says how a run ends that panics, and `panics_iff` that a start with an
    accepted file does if the queue that the file asks for is too long, whatever its
    storage is.
-/
import Reactor.Proofs.Config.Saved

namespace Reactor.Startup

open CommandLine (Arguments parse)
open Config (Accepted ofBytes)

variable {f g : Folder} {path : String} {args : List String} {a : Arguments} {env : Environment}
  {bytes : ByteArray} {c : Config}

/-! ## The configuration of a start -/

/-- The configuration in a file, or the default if none can be loaded. -/
def found (f : Folder) (path : String) : Config :=
  match (load Folder.disk path f).1 with
  | .ok c => c
  | .error _ => .standard

theorem found_of_ok (hread : f.read path = .ok bytes) (h : ofBytes bytes = .ok c) :
    found f path = c := by
  rw [found, load_of_read hread, h]

theorem found_of_refused {e : ConfigError} (hread : f.read path = .ok bytes)
    (h : ofBytes bytes = .error e) : found f path = .standard := by
  rw [found, load_of_read hread, h]

theorem found_of_missing {e : FileError} (hread : f.read path = .error e) :
    found f path = .standard := by
  rw [found, load_run, hread]

theorem accepted_found (f : Folder) (path : String) : Accepted (found f path) := by
  rw [found]
  split
  · rename_i h
    exact .loaded h
  · exact .standard

/-- Loading changes no file. -/
theorem load_fst (f : Folder) (path : String) :
    load Folder.disk path f = ((load Folder.disk path f).1, f) := by
  rw [load_run]

theorem loadOrDefault_run (f : Folder) (path : String) :
    loadOrDefault Folder.disk path f = (found f path, f) := by
  unfold loadOrDefault
  dsimp only [bind, StateT.bind]
  rw [found, load_fst]
  dsimp only
  cases (load Folder.disk path f).1 <;> rfl

/-- A file that is asked for has to be right, unless the configuration is to be written. -/
theorem configure_run (a : Arguments) (env : Environment) (f : Folder) :
    configure Folder.disk a env f =
      (if a.isExplicit env.config? && !a.writeConfig then
          (load Folder.disk (a.path env.config?) f).1.map a.override
        else .ok (a.override (found f (a.path env.config?))), f) := by
  unfold configure
  split
  · dsimp only [bind, StateT.bind]
    rw [load_fst]
    rfl
  · have hrun : Folder.disk.isThere (a.path env.config?) f = (f.isThere (a.path env.config?), f) :=
      rfl
    dsimp only [bind, StateT.bind]
    rw [hrun]
    cases hthere : f.isThere (a.path env.config?) with
    | true =>
      dsimp only
      rw [if_pos rfl]
      dsimp only [StateT.bind]
      rw [loadOrDefault_run]
      rfl
    | false =>
      have hmissing : found f (a.path env.config?) = .standard := by
        cases hread : f.read (a.path env.config?) with
        | ok bytes =>
          rw [Folder.isThere_of_read hread] at hthere
          cases hthere
        | error e => exact found_of_missing hread
      rw [hmissing]
      rfl

theorem configure_of_writeConfig (h : a.writeConfig = true) :
    configure Folder.disk a env f = (.ok (a.override (found f (a.path env.config?))), f) := by
  simp [configure_run, h]

/-- A file that can be loaded is loaded, whether it was asked for or not. -/
theorem configure_of_ok (hread : f.read (a.path env.config?) = .ok bytes) (h : ofBytes bytes = .ok c) :
    configure Folder.disk a env f = (.ok (a.override c), f) := by
  rw [configure_run, load_of_read hread, h, found_of_ok hread h]
  split <;> rfl

/-! ## Writing the configuration -/

/-- What is seen of a run that has written the configuration. -/
def written (path : String) : Report := { exit := 0, output := ["Wrote " ++ path] }

/-- A start that writes its configuration where a file may be. -/
theorem start_of_writeConfig (hparse : parse args = .ok a) (hwrite : a.writeConfig = true)
    (hname : a.path env.config? = path) (hpath : f.Writable path) :
    ∃ g, save Folder.disk (a.override (found f path)) path f = (.ok (), g) ∧
      start Folder.disk args env f = (.ended (written path), g) := by
  have hsave : save Folder.disk (a.override (found f path)) path f = (.ok (), _) :=
    save_eq_ok.2 ⟨hpath, rfl⟩
  refine ⟨_, hsave, ?_⟩
  unfold start
  rw [hparse]
  dsimp only [bind, StateT.bind]
  rw [configure_of_writeConfig hwrite]
  dsimp only
  rw [if_pos hwrite, hname]
  unfold writeOut
  dsimp only [StateT.bind, bind]
  rw [hsave]
  rfl

/-- What was saved is loaded. -/
theorem load_of_save (hc : Accepted c) (a : Arguments)
    (h : save Folder.disk (a.override c) path f = (.ok (), g)) :
    load Folder.disk path g = (.ok (a.override c), g) := by
  obtain ⟨hfits, hnone⟩ := hc.fits
  have hof : ofBytes (a.override c).render.toUTF8 = .ok (a.override c) :=
    Config.ofBytes_of_laid (Config.fits_override a hfits)
      ((Config.problem?_override a c).trans hnone) (Config.trimmed_refl _) (Toml.laid_file _)
  rw [load_of_read (read_of_save h), hof]

/-- A save leaves all other files as they are. -/
theorem file?_of_save (h : save Folder.disk c path f = (.ok (), g)) {q : Path}
    (hq : q ≠ Path.ofText path) : g.file? q = f.file? q := by
  obtain ⟨-, rfl⟩ := save_eq_ok.1 h
  exact Folder.file?_put_of_ne hq _

/-- A start has ended with a failure. -/
def Fails (s : Start) : Prop := ∃ r, s = .ended r ∧ r.exit ≠ 0

/-- A file is there that cannot be loaded. -/
def IsSpoilt (f : Folder) (path : String) : Prop :=
  ∃ bytes e, f.read path = .ok bytes ∧ ofBytes bytes = .error e

/-- What is expected of a start that writes its configuration to a path, of how it ends and
    of the files that it leaves behind. -/
structure Careful (a : Arguments) (path : String) (f : Folder) (s : Start) (g : Folder) : Prop where
  /-- a file that cannot be loaded stays as it is, and the start fails -/
  spares {bytes : ByteArray} {e : ConfigError} : f.read path = .ok bytes →
    ofBytes bytes = .error e → Fails s ∧ g.read path = .ok bytes
  /-- a file that can be loaded is changed as the command line says -/
  updates {bytes : ByteArray} {c : Config} : f.read path = .ok bytes → ofBytes bytes = .ok c →
    load Folder.disk path g = (.ok (a.override c), g)
  /-- a file that is missing is made of the default -/
  creates {e : FileError} : f.read path = .error e →
    load Folder.disk path g = (.ok (a.override .standard), g)

theorem not_fails_written (path : String) : ¬Fails (.ended (written path)) := by
  rintro ⟨r, hr, hexit⟩
  cases hr
  exact hexit rfl

/-- A start that ends without a failure, and with the configuration written, is careful
    unless there was a file that cannot be loaded. -/
theorem careful_iff_not_spoilt (hload : load Folder.disk path g = (.ok (a.override (found f path)), g)) :
    Careful a path f (.ended (written path)) g ↔ ¬IsSpoilt f path := by
  constructor
  · rintro h ⟨bytes, e, hread, he⟩
    exact not_fails_written path (h.spares hread he).1
  · intro hnot
    refine ⟨fun hread he => absurd ⟨_, _, hread, he⟩ hnot, fun hread hc => ?_, fun hread => ?_⟩
    · rw [hload, found_of_ok hread hc]
    · rw [hload, found_of_missing hread]

/-- **A start that writes its configuration** to a path where a file may be ends without a
    failure, and leaves all other files as they are.  What is loaded from there afterwards
    is what was there, or the default if that was missing or spoilt, changed as the command
    line says.  So all files are dealt with carefully but the spoilt ones, which are lost. -/
theorem writes_carefully_iff (hparse : parse args = .ok a) (hwrite : a.writeConfig = true)
    (hpath : f.Writable (a.path env.config?)) :
    ∃ g, start Folder.disk args env f = (.ended (written (a.path env.config?)), g) ∧
      load Folder.disk (a.path env.config?) g =
        (.ok (a.override (found f (a.path env.config?))), g) ∧
      (∀ q, q ≠ Path.ofText (a.path env.config?) → g.file? q = f.file? q) ∧
      (Careful a (a.path env.config?) f (.ended (written (a.path env.config?))) g ↔
        ¬IsSpoilt f (a.path env.config?)) ∧
      (IsSpoilt f (a.path env.config?) → found f (a.path env.config?) = .standard ∧
        g.read (a.path env.config?) ≠ f.read (a.path env.config?)) := by
  obtain ⟨g, hsave, hstart⟩ := start_of_writeConfig hparse hwrite rfl hpath
  have hload := load_of_save (accepted_found _ _) a hsave
  refine ⟨g, hstart, hload, fun q hq => file?_of_save hsave hq, careful_iff_not_spoilt hload, ?_⟩
  rintro ⟨bytes, e, hread, he⟩
  refine ⟨found_of_refused hread he, fun hsame => ?_⟩
  -- what was written can be loaded, so it is not what was there
  rw [load_of_read (hsame.trans hread), he] at hload
  cases hload

/-- A command line that writes the configuration to a file. -/
def writing (path : String) : List String := ["--write-config", "-c", path]

/-- What it asks for. -/
def writingArguments (path : String) : Arguments := { config? := some path, writeConfig := true }

theorem writes_carefully_iff_new : Folder.Writable ⟨[], []⟩ "new.toml" ∧
    ∃ g, start Folder.disk (writing "new.toml") {} ⟨[], []⟩ = (.ended (written "new.toml"), g) ∧
      Careful (writingArguments "new.toml") "new.toml" ⟨[], []⟩ (.ended (written "new.toml")) g := by
  have hparse : parse (writing "new.toml") = .ok (writingArguments "new.toml") := by rfl
  have hpath : Folder.Writable ⟨[], []⟩
      ((writingArguments "new.toml").path ({} : Environment).config?) :=
    ⟨by decide, by decide, by decide⟩
  obtain ⟨g, hstart, -, -, hcareful, -⟩ := writes_carefully_iff hparse rfl hpath
  refine ⟨hpath, g, hstart, hcareful.2 ?_⟩
  rintro ⟨bytes, e, hread, -⟩
  have hmissing : Folder.read ⟨[], []⟩ "new.toml" = .error .notFound := by rfl
  cases hmissing.symm.trans hread

/-- A folder with one file, which holds a configuration. -/
def holding (path : String) (c : Config) : Folder := ⟨[(Path.ofText path, c.brief.toUTF8)], []⟩

/-- A configuration with too little memory for scripts. -/
def short : Config := { script := { Script.Limits.standard with memory := 1 } }

example : short.brief = "[script]\nmemory_limit = 1\n" := by decide

theorem ofBytes_short : ofBytes short.brief.toUTF8 = .error (.invalid .memory) := by
  rw [Config.ofBytes_brief ⟨by decide, by decide, by decide⟩]
  rfl

theorem spoilt_overwritten : ∃ a g, parse (writing "short.toml") = .ok a ∧
    a.isExplicit none = true ∧ (holding "short.toml" short).Writable "short.toml" ∧
    (holding "short.toml" short).read "short.toml" = .ok short.brief.toUTF8 ∧
    ofBytes short.brief.toUTF8 = .error (.invalid .memory) ∧
    start Folder.disk (writing "short.toml") {} (holding "short.toml" short) =
      (.ended (written "short.toml"), g) ∧
    g.read "short.toml" = .ok Config.standard.render.toUTF8 ∧
    ¬Careful a "short.toml" (holding "short.toml" short) (.ended (written "short.toml")) g := by
  have hparse : parse (writing "short.toml") = .ok (writingArguments "short.toml") := by rfl
  have hname : (writingArguments "short.toml").path ({} : Environment).config? = "short.toml" := rfl
  have hpath : (holding "short.toml" short).Writable "short.toml" :=
    ⟨by decide, by decide, by decide⟩
  have hread : (holding "short.toml" short).read "short.toml" = .ok short.brief.toUTF8 := by rfl
  obtain ⟨g, hsave, hstart⟩ := start_of_writeConfig hparse rfl hname hpath
  rw [found_of_refused hread ofBytes_short] at hsave
  refine ⟨_, g, hparse, rfl, hpath, hread, ofBytes_short, hstart, read_of_save hsave, fun h => ?_⟩
  exact not_fails_written _ (h.spares hread ofBytes_short).1

/-! ## The queue -/

/-- A run has ended as one does that panics. -/
def Panics (s : Start) : Prop := ∃ r, s = .ended r ∧ r.exit = 101

@[simp] theorem panics_ended (r : Report) : Panics (.ended r) ↔ r.exit = 101 := by
  simp [Panics]

@[simp] theorem not_panics_serving (s : Session) : ¬Panics (.serving s) := nofun

@[simp] theorem exit_reportOf (c : Config) (rs : Log.Rules) (exit : Nat) (log : List Log.Line) :
    (reportOf c rs exit log).exit = exit := rfl

theorem pure_run {α : Type} (x : α) (f : Folder) : (pure x : StateM Folder α) f = (x, f) := rfl

variable {storage : Config.Persistence → StateM Folder Opening}

/-- **A service panics** if its storage is open, whatever that is, and there is no queue
    as it asks for. -/
theorem panics_serve : Panics (serve (Folder.diskWith storage) env c f).1 ↔
    (storage c.storage f).1.isOpen = true ∧ Queue.new? c.general.bufferSize = none := by
  have hstorage : (Folder.diskWith storage).openStorage c.storage f = storage c.storage f := rfl
  unfold serve
  dsimp only [bind, StateT.bind]
  rw [hstorage]
  obtain ⟨opening, g⟩ := storage c.storage f
  cases opening with
  | closed => simp [pure_run, Opening.isOpen]
  | unreadable lines => simp [pure_run, Opening.isOpen]
  | opened lines =>
    have hopen : (Opening.opened lines).isOpen = true := rfl
    cases hqueue : Queue.new? c.general.bufferSize with
    | none => simp [pure_run, hopen]
    | some queue =>
      cases henabled : c.api.enabled with
      | false => simp [pure_run]
      | true => cases Http.listen c.api.bindAddress <;> simp [pure_run]

/-- A file that can be loaded asks for a queue that holds something, and for no more than
    a signed word can say. -/
theorem bufferSize_of_ofBytes (h : ofBytes bytes = .ok c) :
    1 ≤ c.general.bufferSize ∧ c.general.bufferSize < Word.count 63 := by
  obtain ⟨s, hs, hnone⟩ := Config.exists_text_of_ofBytes h
  refine ⟨Nat.one_le_iff_ne_zero.2 fun hzero => ?_, (Config.fits_of_ofText hs).bufferSize⟩
  rw [Config.problem?, if_pos hzero] at hnone
  cases hnone

/-- A start that serves has the configuration of its file. -/
theorem start_of_serve (hparse : parse args = .ok a) (hserve : a.writeConfig = false)
    (hread : f.read (a.path env.config?) = .ok bytes) (h : ofBytes bytes = .ok c) :
    start (Folder.diskWith storage) args env f =
      serve (Folder.diskWith storage) env (a.override c) f := by
  have hconfigure : configure (Folder.diskWith storage) a env f = (.ok (a.override c), f) :=
    configure_of_ok hread h
  unfold start
  rw [hparse]
  dsimp only [bind, StateT.bind]
  rw [hconfigure]
  simp [hserve]

/-- **The queue of an accepted file** is made as long as the file says, whatever the
    command line asks for, if it is not longer than a queue can be.  If it is, there is
    none, and a start panics as soon as its storage is open, whatever that holds. -/
theorem panics_iff (h : ofBytes bytes = .ok c) :
    (∀ a : Arguments, Queue.new? (a.override c).general.bufferSize =
      if c.general.bufferSize ≤ Queue.limit then some ⟨c.general.bufferSize, [], 1⟩ else none) ∧
    ∀ {storage : Config.Persistence → StateM Folder Opening} {args : List String}
      {a : Arguments} {env : Environment} {f : Folder},
      parse args = .ok a → a.writeConfig = false → f.read (a.path env.config?) = .ok bytes →
        (Panics (start (Folder.diskWith storage) args env f).1 ↔
          (storage c.storage f).1.isOpen = true ∧ Queue.limit < c.general.bufferSize) := by
  have hqueue : ∀ a : Arguments, Queue.new? (a.override c).general.bufferSize =
      if c.general.bufferSize ≤ Queue.limit then some ⟨c.general.bufferSize, [], 1⟩ else none := by
    intro a
    have hsize : (a.override c).general.bufferSize = c.general.bufferSize := rfl
    rw [hsize, Queue.new?, max_eq_right (bufferSize_of_ofBytes h).1]
  refine ⟨hqueue, fun {storage args a env f} hparse hserve hread => ?_⟩
  have hstorage : (a.override c).storage = c.storage := rfl
  rw [start_of_serve hparse hserve hread h, panics_serve, hqueue, hstorage]
  simp

/-- The default with a queue of some length. -/
def sized (n : Nat) : Config := { general := { bufferSize := n } }

/-- Every length from 1 to the greatest number is accepted. -/
theorem ofBytes_sized {n : Nat} (h : 1 ≤ n) (hn : n < Word.count 63) :
    ofBytes (sized n).brief.toUTF8 = .ok (sized n) := by
  have hnone : (sized n).problem? = none := by
    rw [sized, Config.problem?, if_neg (Nat.one_le_iff_ne_zero.1 h)]
    rfl
  have hfits : (sized n).Fits :=
    ⟨hn, Config.fits_standard.instructions, Config.fits_standard.memory⟩
  rw [Config.ofBytes_brief hfits]
  exact Config.validate_eq_ok.2 ⟨hnone, rfl⟩

theorem panics_iff_limit : ofBytes (sized Queue.limit).brief.toUTF8 = .ok (sized Queue.limit) ∧
    ¬Panics (start Folder.disk ["-b", "no-port"] {}
      (holding "reflex.toml" (sized Queue.limit))).1 := by
  have h : ofBytes (sized Queue.limit).brief.toUTF8 = .ok (sized Queue.limit) :=
    ofBytes_sized (by decide) (by decide)
  have hparse : parse ["-b", "no-port"] = .ok { bind? := some "no-port" } := by rfl
  have hread : (holding "reflex.toml" (sized Queue.limit)).read CommandLine.defaultPath =
      .ok (sized Queue.limit).brief.toUTF8 := by rfl
  refine ⟨h, fun hpanics => ?_⟩
  exact lt_irrefl _ (((panics_iff h).2 hparse rfl hread).1 hpanics).2

/-- A queue of one more than the greatest length is asked for, and accepted. -/
theorem no_queue_of_accepted :
    (sized (Queue.limit + 1)).brief =
      "[general]\nevents_buffer_size = 2305843009213693952\n" ∧
    (∃ c, ofBytes (sized (Queue.limit + 1)).brief.toUTF8 = .ok c ∧
      ∀ a : Arguments, Queue.new? (a.override c).general.bufferSize = none) ∧
    Panics (start Folder.disk [] {} (holding "reflex.toml" (sized (Queue.limit + 1)))).1 := by
  have h : ofBytes (sized (Queue.limit + 1)).brief.toUTF8 = .ok (sized (Queue.limit + 1)) :=
    ofBytes_sized (by decide) (by decide)
  have hread : (holding "reflex.toml" (sized (Queue.limit + 1))).read CommandLine.defaultPath =
      .ok (sized (Queue.limit + 1)).brief.toUTF8 := by rfl
  have hparse : parse [] = .ok {} := rfl
  refine ⟨by decide, ⟨_, h, fun a => rfl⟩, ?_⟩
  rw [Folder.disk, start_of_serve hparse rfl hread h, panics_serve]
  -- the database of the default is made, and there is no queue
  exact ⟨by rfl, rfl⟩

end Reactor.Startup
