/-
  Files that are written and read.

  * `Folder.Writable` says that a file may be at a path: no folder is there, none
    is made there, and no file is on the way;
  * `save_eq_ok`: a configuration can be saved at such a path and at no other;
  * `read_of_save`: its text is then read from there.
-/
import Reactor.Startup

namespace Reactor

namespace Path

theorem through_concat (p : Path) (parts : List String) (part : String) :
    through p (parts ++ [part]) = through p parts ++ [parts.foldl enter p] := by
  induction parts generalizing p with
  | nil => rfl
  | cons q parts ih => exact congrArg (p :: ·) (ih (p.enter q))

theorem exists_partsOf (s : String) : ∃ parts part, partsOf s = parts ++ [part] := by
  have hne : partsOf s ≠ [] := by
    simp [partsOf, List.splitOn, List.splitOnP_ne_nil]
  exact ⟨_, _, (List.dropLast_concat_getLast hne).symm⟩

theorem ofText_eq {s : String} {parts : List String} {part : String}
    (h : partsOf s = parts ++ [part]) : ofText s = (parts.foldl enter (start s)).enter part := by
  rw [ofText, h, List.foldl_append]
  rfl

theorem mem_way {s : String} {parts : List String} {part : String}
    (h : partsOf s = parts ++ [part]) : parts.foldl enter (start s) ∈ way s := by
  rw [way, h, through_concat]
  exact List.mem_append_right _ List.mem_cons_self

/-- A text that does not lead through its own path ends with a name, or leads back. -/
theorem exists_last {s : String} (h : ofText s ∉ way s) :
    ∃ parts part, partsOf s = parts ++ [part] ∧ part ≠ "" ∧ part ≠ "." := by
  obtain ⟨parts, part, hparts⟩ := exists_partsOf s
  refine ⟨parts, part, hparts, ?_, ?_⟩
  · rintro rfl
    exact h (ofText_eq hparts ▸ mem_way hparts)
  · rintro rfl
    exact h (ofText_eq hparts ▸ mem_way hparts)

theorem wayToParent_eq_way {s : String} (h : ofText s ∉ way s) : wayToParent s = way s := by
  obtain ⟨parts, part, hparts, hempty, hdot⟩ := exists_last h
  rw [wayToParent, way, hparts, List.reverse_concat,
    List.dropWhile_cons_of_neg (by simp [hempty, hdot]), List.reverse_cons, List.reverse_reverse]

end Path

namespace Folder

/-- A file may be at a path. -/
structure Writable (f : Folder) (path : String) : Prop where
  /-- no folder is there -/
  free : f.isFolder (Path.ofText path) = false
  /-- none is made there on the way -/
  off : Path.ofText path ∉ Path.way path
  /-- no file is on the way -/
  open_ : ∀ p ∈ Path.way path, f.file? p = none

/-- A folder with the folders that a path leads through. -/
def withParents (f : Folder) (path : String) : Folder :=
  { f with folders := f.folders ++ Path.wayToParent path }

/-- A folder with a file, in the place of the one that was there. -/
def put (f : Folder) (p : Path) (bytes : ByteArray) : Folder :=
  { f with files := (p, bytes) :: f.files.filter (·.1 ≠ p) }

variable {f : Folder} {path : String}

theorem file?_put_self (p : Path) (bytes : ByteArray) : (f.put p bytes).file? p = some bytes := by
  simp [put, file?]

theorem file?_put_of_ne {p q : Path} (h : q ≠ p) (bytes : ByteArray) :
    (f.put p bytes).file? q = f.file? q := by
  have hfiles : ∀ e : Path × ByteArray, (decide (e.1 ≠ p) = true ∧ decide (e.1 = q) = true) ↔
      e.1 = q := by
    intro e
    simp only [decide_eq_true_iff]
    exact ⟨fun he => he.2, fun he => ⟨he ▸ h, he⟩⟩
  rw [put, file?, file?, List.find?_cons_of_neg (by simpa using h.symm), List.find?_filter]
  simp only [hfiles]

theorem makeParents_eq_ok {g : Folder} : f.makeParents path = .ok g ↔
    (∀ p ∈ Path.wayToParent path, f.file? p = none) ∧ g = f.withParents path := by
  unfold makeParents
  dsimp only
  split
  · rename_i h
    obtain ⟨p, hp, hfile⟩ := List.any_eq_true.1 h
    refine ⟨nofun, fun hnone => ?_⟩
    rw [isFile, hnone.1 p ((List.dropLast_sublist _).subset hp)] at hfile
    cases hfile
  · split
    · rename_i h
      obtain ⟨p, hp, hfile⟩ := List.any_eq_true.1 h
      refine ⟨nofun, fun hnone => ?_⟩
      rw [isFile, hnone.1 p hp] at hfile
      cases hfile
    · rename_i h
      have hnone : ∀ p ∈ Path.wayToParent path, f.file? p = none := by
        simpa [isFile] using h
      exact ⟨fun heq => ⟨hnone, (Except.ok.inj heq).symm⟩, fun heq => congrArg _ heq.2.symm⟩

/-- One gets along a way of folders. -/
theorem obstacle?_eq_none {way : List Path} :
    f.obstacle? way = none ↔ ∀ p ∈ way, f.file? p = none ∧ f.isFolder p := by
  rw [obstacle?, List.findSome?_eq_none_iff]
  refine forall₂_congr fun p _ => ?_
  cases hfile : f.file? p <;> simp [isFile, hfile]

/-- What is read is the file at the end of a way of folders. -/
theorem read_eq_ok {bytes : ByteArray} : f.read path = .ok bytes ↔
    f.obstacle? (Path.way path) = none ∧ f.file? (Path.ofText path) = some bytes := by
  rw [read]
  cases f.obstacle? (Path.way path) with
  | some e => simp
  | none => cases f.file? (Path.ofText path) <;> simp

theorem isThere_of_read {bytes : ByteArray} (h : f.read path = .ok bytes) : f.isThere path := by
  obtain ⟨hway, hfile⟩ := read_eq_ok.1 h
  have hne : path ≠ "" := by
    rintro rfl
    -- the empty path leads through itself
    have hself : Path.ofText "" ∈ Path.way "" := by decide
    rw [(obstacle?_eq_none.1 hway _ hself).1] at hfile
    cases hfile
  simp [isThere, hne, hway, isFile, hfile]

theorem isFolder_withParents (p : Path) : (f.withParents path).isFolder p =
    (f.isFolder p || (Path.wayToParent path).contains p) := by
  simp only [withParents, isFolder, List.contains_append]
  rw [← Bool.or_assoc, Bool.or_right_comm]

/-- A path does not lead through itself if there is no folder, but all folders on the
    way are there. -/
theorem off_of_free (hfree : f.isFolder (Path.ofText path) = false)
    (hway : ∀ p ∈ Path.way path, f.file? p = none ∧ f.isFolder p) :
    Path.ofText path ∉ Path.way path := by
  intro h
  rw [(hway _ h).2] at hfree
  cases hfree

/-- A file is written where folders are on the way. -/
theorem write_eq_ok {g : Folder} {bytes : ByteArray} : f.write path bytes = .ok g ↔
    (f.isFolder (Path.ofText path) = false ∧
      ∀ p ∈ Path.way path, f.file? p = none ∧ f.isFolder p) ∧
        g = f.put (Path.ofText path) bytes := by
  rw [← obstacle?_eq_none]
  unfold write
  dsimp only
  split
  · rename_i hempty
    subst hempty
    rw [obstacle?_eq_none]
    exact ⟨nofun, fun h => absurd (by decide) (off_of_free h.1.1 h.1.2)⟩
  · split
    · rename_i hlast
      rw [obstacle?_eq_none]
      refine ⟨nofun, fun h => ?_⟩
      obtain ⟨parts, part, hparts, hne, -⟩ := Path.exists_last (off_of_free h.1.1 h.1.2)
      rw [hparts, List.getLast?_concat] at hlast
      exact absurd (Option.some.inj hlast) hne
    · split
      · rename_i hobstacle
        rw [hobstacle]
        exact ⟨nofun, fun h => nomatch h.1.2⟩
      · rename_i hobstacle
        split
        · rename_i hfolder
          refine ⟨nofun, fun h => ?_⟩
          rw [hfolder] at h
          cases h.1.1
        · rename_i hfree
          exact ⟨fun h => ⟨⟨by simpa using hfree, hobstacle⟩, (Except.ok.inj h).symm⟩,
            fun h => congrArg _ h.2.symm⟩

theorem attempt_eq_ok {act : Folder → Except FileError Folder} {g : Folder} :
    attempt act f = (.ok (), g) ↔ act f = .ok g := by
  unfold attempt
  cases act f with
  | error e => exact ⟨nofun, nofun⟩
  | ok g' => exact ⟨fun h => congrArg _ (congrArg Prod.snd h), fun h => by cases h; rfl⟩

end Folder

namespace Startup

variable {f : Folder} {path : String}

theorem load_run (f : Folder) (path : String) : load Folder.disk path f =
    (match f.read path with
      | .ok bytes => Config.ofBytes bytes
      | .error e => .error (.io e.kind e.message), f) := by
  unfold load
  dsimp only [Folder.disk, Folder.diskWith, Folder.fileSystem, bind, StateT.bind]
  cases f.read path <;> rfl

/-- **Where a configuration can be saved**, and what there is then. -/
theorem save_eq_ok {c : Config} {g : Folder} :
    save Folder.disk c path f = (.ok (), g) ↔ f.Writable path ∧
      g = (f.withParents path).put (Path.ofText path) c.render.toUTF8 := by
  unfold save
  dsimp only [Folder.disk, Folder.diskWith, Folder.fileSystem, Folder.attempt, bind, StateT.bind]
  cases hparents : f.makeParents path with
  | error e =>
    refine ⟨fun h => (nomatch congrArg Prod.fst h), fun ⟨h, _⟩ => ?_⟩
    rw [Folder.makeParents_eq_ok.2 ⟨Path.wayToParent_eq_way h.off ▸ h.open_, rfl⟩] at hparents
    cases hparents
  | ok f' =>
    obtain ⟨hopen, rfl⟩ := Folder.makeParents_eq_ok.1 hparents
    dsimp only
    rw [Folder.attempt_eq_ok.trans Folder.write_eq_ok]
    constructor
    · rintro ⟨⟨hfree, hway⟩, rfl⟩
      have hoff := Folder.off_of_free hfree hway
      rw [Folder.isFolder_withParents, Bool.or_eq_false_iff] at hfree
      exact ⟨⟨hfree.1, hoff, fun p hp => (hway p hp).1⟩, rfl⟩
    · rintro ⟨h, rfl⟩
      have hway := Path.wayToParent_eq_way h.off
      refine ⟨⟨?_, fun p hp => ⟨h.open_ p hp, ?_⟩⟩, rfl⟩
      · rw [Folder.isFolder_withParents, h.free, hway]
        simpa using h.off
      · rw [Folder.isFolder_withParents, hway]
        simp [hp]

/-- What was saved is read. -/
theorem read_of_save {c : Config} {g : Folder} (h : save Folder.disk c path f = (.ok (), g)) :
    g.read path = .ok c.render.toUTF8 := by
  obtain ⟨hpath, rfl⟩ := save_eq_ok.1 h
  have hway : ∀ p ∈ Path.way path,
      ((f.withParents path).put (Path.ofText path) c.render.toUTF8).file? p = none ∧
        ((f.withParents path).put (Path.ofText path) c.render.toUTF8).isFolder p := by
    intro p hp
    have hne : p ≠ Path.ofText path := fun heq => hpath.off (heq ▸ hp)
    refine ⟨(Folder.file?_put_of_ne hne _).trans (hpath.open_ p hp), ?_⟩
    simp [Folder.isFolder, Folder.put, Folder.withParents, Path.wayToParent_eq_way hpath.off, hp]
  exact Folder.read_eq_ok.2 ⟨Folder.obstacle?_eq_none.2 hway, Folder.file?_put_self _ _⟩

theorem load_of_read {bytes : ByteArray} (h : f.read path = .ok bytes) :
    load Folder.disk path f = (Config.ofBytes bytes, f) := by
  rw [load_run, h]

end Startup

end Reactor
