/-
  Databases as shelves.

  A shelf has entries in the order in which they were put there.  An entry is a
  reaction, or what is wrong with what was written in its place.

  * `Shelf.Does` says what a shelf answers to a command, and what is on it then;
    `Shelf.Fails` when the answer is a failure, `Does.isFailure_iff` that it is;
  * `Database.Shows` is what holds between a database and the entries in it;
    `Shows.perform` is the step, `Shows.performAll` the run;
  * `lists_forEvent` and `lists_all`: rows sorted by their numbers are entries
    sorted by their places;
  * `Database.keeps_shelf`: a database is a shelf, from its first opening on.
-/
import Reactor.Database
import Reactor.Proofs.Storage
import Reactor.Proofs.Text.Order

namespace Reactor

/-- What was written under a key. -/
structure Entry where
  event : String
  name : String
  content : Except ServiceError Reaction
  createdAt : Int

/-- Entries in the order in which they were written. -/
abbrev Shelf := List Entry

namespace Entry

/-- What tells entries apart. -/
def key (x : Entry) : String × String := (x.event, x.name)

/-- Reading an entry fails. -/
def Unreadable (x : Entry) : Prop := ∃ e, x.content = .error e

/-- An entry of a shelf is older than another: it was written in an earlier
    second, or in the same second and before it. -/
def Older (s : Shelf) (x y : Entry) : Prop :=
  x.createdAt < y.createdAt ∨ x.createdAt = y.createdAt ∧ [x, y].Sublist s

/-- An entry of a shelf comes before another: by the bytes of the event, then by
    age. -/
def Precedes (s : Shelf) (x y : Entry) : Prop :=
  Text.bytes x.event < Text.bytes y.event ∨ x.event = y.event ∧ x.Older s y

end Entry

/-- What cells hold as the script and the steps of a reaction. -/
def Cell.content (event name : String) (script steps : Cell) : Except ServiceError Reaction :=
  Row.reaction ⟨0, event, name, script, steps, 0⟩

/-- The steps in a command are kept in order, as all steps are. -/
def Command.Sorted : Command → Prop
  | .create _ r => r.steps.Sorted
  | _ => True

/-- A command may change what is there. -/
def Command.Writes : Command → Prop
  | .create .. | .insertRaw .. | .delete .. => True
  | _ => False

/-- A reply says that something went wrong. -/
def Reply.IsFailure : Reply → Prop
  | .written r => ∃ e, r = .error e
  | .inserted done => done = false
  | .found r => ∃ e, r = .error e
  | .listed r => ∃ e, r = .error e
  | .counted _ => False
  | .opened done => done = false

/-- Without the one under a key there are all others. -/
theorem filter_bne_key {α κ : Type} [BEq κ] [LawfulBEq κ] {key : α → κ} {a : α} {xs ys : List α}
    (h : ((xs ++ a :: ys).map key).Nodup) :
    (xs ++ a :: ys).filter (fun b => key b != key a) = xs ++ ys := by
  rw [List.map_append, List.map_cons, List.nodup_middle, ← List.map_append, List.nodup_cons] at h
  have hother : ∀ b ∈ xs ++ ys, (key b != key a) = true := by
    intro b hb
    rw [bne_iff_ne]
    exact fun hkey => h.1 (List.mem_map.2 ⟨b, hb, hkey⟩)
  rw [List.filter_append, List.filter_cons, bne_self_eq_false, if_neg Bool.false_ne_true,
    ← List.filter_append, List.filter_eq_self.2 hother]

/-! ## Shelves -/

namespace Shelf

/-- A shelf has nothing under a key. -/
def Free (s : Shelf) (event name : String) : Prop := ∀ x ∈ s, x.key ≠ (event, name)

/-- What a shelf answers to a command, and what is on it then. -/
inductive Does : Shelf → Command → Reply → Shelf → Prop
  | create {s : Shelf} {now : Int} {r : Reaction} (hfree : s.Free r.event r.name) :
    Does s (.create now r) (.written (.ok ())) (s ++ [⟨r.event, r.name, .ok r.normalize, now⟩])
  | conflict {s : Shelf} {now : Int} {r : Reaction} (htaken : ¬s.Free r.event r.name) :
    Does s (.create now r) (.written (.error (.conflict r.event r.name))) s
  | insert {s : Shelf} {event name : String} {script steps : Cell} {createdAt : Int}
    (hfree : s.Free event name) :
    Does s (.insertRaw event name script steps createdAt) (.inserted true)
      (s ++ [⟨event, name, Cell.content event name script steps, createdAt⟩])
  | refuse {s : Shelf} {event name : String} {script steps : Cell} {createdAt : Int}
    (htaken : ¬s.Free event name) :
    Does s (.insertRaw event name script steps createdAt) (.inserted false) s
  | delete {s t u : Shelf} {event name : String} {x : Entry} (hs : s = t ++ x :: u)
    (hkey : x.key = (event, name)) : Does s (.delete event name) (.written (.ok ())) (t ++ u)
  | missing {s : Shelf} {event name : String} (hfree : s.Free event name) :
    Does s (.delete event name) (.written (.error (.notFound event name))) s
  | found {s : Shelf} {event name : String} {x : Entry} (hx : x ∈ s)
    (hkey : x.key = (event, name)) :
    Does s (.get event name) (.found (x.content.map some)) s
  | nothing {s : Shelf} {event name : String} (hfree : s.Free event name) :
    Does s (.get event name) (.found (.ok none)) s
  | forEvent {s xs : Shelf} {event : String} (hxs : xs.Perm (s.filter (·.event == event)))
    (hsorted : xs.Pairwise (Entry.Older s)) :
    Does s (.forEvent event) (.listed (xs.mapM Entry.content)) s
  | all {s xs : Shelf} (hxs : xs.Perm s) (hsorted : xs.Pairwise (Entry.Precedes s)) :
    Does s .all (.listed (xs.mapM Entry.content)) s
  | count {s : Shelf} : Does s .count (.counted s.length) s
  | reopen {s : Shelf} : Does s .reopen (.opened true) s

/-- What a shelf answers to commands one after the other. -/
inductive DoesAll : Shelf → List Command → List Reply → Shelf → Prop
  | nil {s : Shelf} : DoesAll s [] [] s
  | cons {s t u : Shelf} {c : Command} {cs : List Command} {r : Reply} {rs : List Reply}
    (hdoes : s.Does c r t) (hall : DoesAll t cs rs u) : DoesAll s (c :: cs) (r :: rs) u

/-- When a command fails. -/
def Fails (s : Shelf) : Command → Prop
  | .create _ r => ∃ x ∈ s, x.key = (r.event, r.name)
  | .insertRaw event name .. => ∃ x ∈ s, x.key = (event, name)
  | .delete event name => ¬∃ x ∈ s, x.key = (event, name)
  | .get event name => ∃ x ∈ s, x.key = (event, name) ∧ x.Unreadable
  | .forEvent event => ∃ x ∈ s, x.event = event ∧ x.Unreadable
  | .all => ∃ x ∈ s, x.Unreadable
  | .count | .reopen => False

variable {s t : Shelf}

theorem not_free {event name : String} :
    ¬s.Free event name ↔ ∃ x ∈ s, x.key = (event, name) := by
  simp [Free]

theorem mapM_fails {xs : List Entry} :
    (∃ e, xs.mapM Entry.content = .error e) ↔ ∃ x ∈ xs, x.Unreadable :=
  Except.mapM_eq_error

/-- **A command fails for the key, or for the event, that it is about.** -/
theorem Does.isFailure_iff {c : Command} {r : Reply} (hs : (s.map Entry.key).Nodup)
    (h : s.Does c r t) : r.IsFailure ↔ s.Fails c := by
  cases h with
  | create hfree | insert hfree => exact iff_of_false nofun fun h => not_free.2 h hfree
  | conflict htaken => exact iff_of_true ⟨_, rfl⟩ (not_free.1 htaken)
  | refuse htaken => exact iff_of_true rfl (not_free.1 htaken)
  | @delete _ _ _ _ x h hkey => exact iff_of_false nofun fun hnone => hnone ⟨x, by simp [h], hkey⟩
  | missing hfree => exact iff_of_true ⟨_, rfl⟩ fun h => not_free.2 h hfree
  | @found _ _ x hx hkey =>
    have hcontent : (∃ e, x.content.map some = .error e) ↔ x.Unreadable := by
      unfold Entry.Unreadable
      cases x.content <;> simp [Except.map]
    refine hcontent.trans ⟨fun h => ⟨x, hx, hkey, h⟩, ?_⟩
    rintro ⟨y, hy, hkey', h⟩
    rwa [List.inj_on_of_nodup_map hs hy hx (hkey'.trans hkey.symm)] at h
  | nothing hfree =>
    refine iff_of_false nofun ?_
    rintro ⟨x, hx, hkey, -⟩
    exact hfree x hx hkey
  | forEvent hxs _ =>
    refine mapM_fails.trans (exists_congr fun x => ?_)
    simp [hxs.mem_iff, and_assoc]
  | all hxs _ =>
    refine mapM_fails.trans (exists_congr fun x => ?_)
    rw [hxs.mem_iff]
  | count | reopen => exact iff_of_false nofun nofun

/-! ### One answer -/

theorem not_sublist_swap {x y : Entry} (hs : s.Nodup) (hxy : [x, y].Sublist s) :
    ¬[y, x].Sublist s := by
  induction s with
  | nil => nomatch hxy
  | cons a s ih =>
    obtain ⟨ha, hs⟩ := List.nodup_cons.1 hs
    intro hyx
    rcases List.sublist_cons_iff.1 hxy with h | ⟨_, ⟨⟩, h⟩ <;>
      rcases List.sublist_cons_iff.1 hyx with h' | ⟨_, ⟨⟩, h'⟩
    · exact ih hs h h'
    · exact ha (h.subset (by simp))
    · exact ha (h'.subset (by simp))
    · exact ha (h.subset (by simp))

theorem eq_of_older {x y : Entry} (hs : s.Nodup) (h : x.Older s y) (h' : y.Older s x) : x = y := by
  rcases h with h | ⟨h, hbefore⟩ <;> rcases h' with h' | ⟨h', hbefore'⟩
  · omega
  · omega
  · omega
  · exact absurd hbefore' (not_sublist_swap hs hbefore)

theorem eq_of_precedes {x y : Entry} (hs : s.Nodup) (h : x.Precedes s y) (h' : y.Precedes s x) :
    x = y := by
  simp only [Entry.Precedes, ← Text.lt_iff_bytes_lt] at h h'
  rcases h with h | ⟨h, hage⟩ <;> rcases h' with h' | ⟨h', hage'⟩
  · exact absurd h' (String.lt_asymm h)
  · exact absurd h'.symm (String.ne_of_lt h)
  · exact absurd h.symm (String.ne_of_lt h')
  · exact eq_of_older hs hage hage'

/-- **There is one answer** to a command, and one shelf after it. -/
theorem Does.unique {c : Command} {r r' : Reply} {t t' : Shelf} (hs : (s.map Entry.key).Nodup)
    (h : s.Does c r t) (h' : s.Does c r' t') : r = r' ∧ t = t' := by
  have hnodup : s.Nodup := hs.of_map _
  cases h with
  | create hfree =>
    cases h' with
    | create _ => exact ⟨rfl, rfl⟩
    | conflict htaken => exact absurd hfree htaken
  | conflict htaken =>
    cases h' with
    | create hfree => exact absurd hfree htaken
    | conflict _ => exact ⟨rfl, rfl⟩
  | insert hfree =>
    cases h' with
    | insert _ => exact ⟨rfl, rfl⟩
    | refuse htaken => exact absurd hfree htaken
  | refuse htaken =>
    cases h' with
    | insert hfree => exact absurd hfree htaken
    | refuse _ => exact ⟨rfl, rfl⟩
  | @delete t u _ _ x hsplit hkey =>
    cases h' with
    | @delete t' u' _ _ x' hsplit' hkey' =>
      subst hsplit
      have hx : x' = x := List.inj_on_of_nodup_map hs (by simp [hsplit']) (by simp)
        (hkey'.trans hkey.symm)
      subst hx
      rw [← filter_bne_key hs, hsplit', filter_bne_key (hsplit' ▸ hs)]
      exact ⟨rfl, rfl⟩
    | missing hfree => exact absurd hkey (hfree x (by simp [hsplit]))
  | missing hfree =>
    cases h' with
    | @delete _ _ _ _ x hsplit hkey => exact absurd hkey (hfree x (by simp [hsplit]))
    | missing _ => exact ⟨rfl, rfl⟩
  | @found _ _ x hx hkey =>
    cases h' with
    | @found _ _ x' hx' hkey' =>
      rw [List.inj_on_of_nodup_map hs hx' hx (hkey'.trans hkey.symm)]
      exact ⟨rfl, rfl⟩
    | nothing hfree => exact absurd hkey (hfree x hx)
  | nothing hfree =>
    cases h' with
    | @found _ _ x hx hkey => exact absurd hkey (hfree x hx)
    | nothing _ => exact ⟨rfl, rfl⟩
  | forEvent hxs hsorted =>
    cases h' with
    | forEvent hxs' hsorted' =>
      rw [List.Perm.eq_of_pairwise (fun x y _ _ => eq_of_older hnodup) hsorted hsorted'
        (hxs.trans hxs'.symm)]
      exact ⟨rfl, rfl⟩
  | all hxs hsorted =>
    cases h' with
    | all hxs' hsorted' =>
      rw [List.Perm.eq_of_pairwise (fun x y _ _ => eq_of_precedes hnodup) hsorted hsorted'
        (hxs.trans hxs'.symm)]
      exact ⟨rfl, rfl⟩
  | count | reopen =>
    cases h'
    exact ⟨rfl, rfl⟩

end Shelf

/-! ## Rows as entries -/

/-- The entry in a row. -/
def Row.entry (row : Row) : Entry := ⟨row.event, row.name, row.reaction, row.createdAt⟩

namespace Storage

variable {s : Storage}

/-- The entries in the rows. -/
def shelf (s : Storage) : Shelf := s.rows.map Row.entry

/-- Each row has a number above those of the rows before it. -/
def Numbered (s : Storage) : Prop := s.rows.Pairwise fun a b => a.number < b.number

theorem free_iff {e n : String} : s.shelf.Free e n ↔ s.find? e n = none := by
  rw [find?_eq_none, Shelf.Free, shelf, List.forall_mem_map]
  rfl

theorem Numbered.nodup (hs : s.Numbered) : s.rows.Nodup := by
  refine List.Pairwise.imp ?_ hs
  rintro a b hlt rfl
  exact Nat.lt_irrefl _ hlt

/-- Numbers tell in which order rows stand. -/
theorem Numbered.sublist (hs : s.Numbered) {a b : Row} (ha : a ∈ s.rows) (hb : b ∈ s.rows)
    (h : a.number < b.number) : [a.entry, b.entry].Sublist s.shelf := by
  obtain ⟨xs, ys, hrows⟩ := List.append_of_mem ha
  rw [Numbered, hrows, List.pairwise_append] at hs
  obtain ⟨-, -, hbefore⟩ := hs
  have hb : b ∈ ys := by
    rw [hrows, List.mem_append, List.mem_cons] at hb
    rcases hb with hb | rfl | hb
    · exact absurd (hbefore b hb a List.mem_cons_self) (Nat.lt_asymm h)
    · exact absurd h (Nat.lt_irrefl _)
    · exact hb
  have hsublist : [a, b].Sublist (xs ++ a :: ys) :=
    ((List.singleton_sublist.2 hb).cons_cons a).trans (List.sublist_append_right xs _)
  rw [shelf, hrows]
  exact hsublist.map Row.entry

theorem Numbered.lt_of_ne (hs : s.Numbered) {a b : Row} (ha : a ∈ s.rows) (hb : b ∈ s.rows)
    (hne : a ≠ b) (h : a.number ≤ b.number) : a.number < b.number := by
  refine Nat.lt_of_le_of_ne h fun heq => hne ?_
  have hnodup : (s.rows.map (·.number)).Nodup :=
    List.pairwise_map.2 (List.Pairwise.imp Nat.ne_of_lt hs)
  exact List.inj_on_of_nodup_map hnodup ha hb heq

theorem Numbered.older (hs : s.Numbered) {a b : Row} (ha : a ∈ s.rows) (hb : b ∈ s.rows)
    (hne : a ≠ b) (h : a.isBefore b) : a.entry.Older s.shelf b.entry :=
  (Row.isBefore_iff.1 h).imp id fun ⟨htime, hnumber⟩ =>
    ⟨htime, hs.sublist ha hb (hs.lt_of_ne ha hb hne hnumber)⟩

theorem Numbered.precedes (hs : s.Numbered) {a b : Row} (ha : a ∈ s.rows) (hb : b ∈ s.rows)
    (hne : a ≠ b) (h : a.isBeforeByEvent b) : a.entry.Precedes s.shelf b.entry :=
  (Row.isBeforeByEvent_iff.1 h).imp Text.lt_iff_bytes_lt.1 fun ⟨hevent, hbefore⟩ =>
    ⟨hevent, hs.older ha hb hne hbefore⟩

/-- Sorted rows, read as entries. -/
theorem mapM_entry (rows : List Row) :
    rows.mapM Row.reaction = (rows.map Row.entry).mapM Entry.content := by
  rw [List.mapM_map]
  rfl

/-- **The rows of an event** are listed by age. -/
theorem Numbered.lists_forEvent (hs : s.Numbered) (e : String) :
    s.shelf.Does (.forEvent e) (.listed (s.forEvent e)) s.shelf := by
  rw [forEvent, mapM_entry]
  have hperm := List.mergeSort_perm (s.rows.filter (·.event == e)) Row.isBefore
  have hmem {a : Row} (ha : a ∈ (s.rows.filter (·.event == e)).mergeSort Row.isBefore) :
      a ∈ s.rows := (List.mem_filter.1 (hperm.mem_iff.1 ha)).1
  have hnodup := hperm.nodup_iff.2 (hs.nodup.filter _)
  refine .forEvent ?_ (List.pairwise_map.2 ?_)
  · rw [shelf, List.filter_map]
    exact hperm.map Row.entry
  · have hsorted := Row.pairwise_isBefore (s.rows.filter (·.event == e))
    exact (hsorted.and hnodup).imp_of_mem fun ha hb h => hs.older (hmem ha) (hmem hb) h.2 h.1

/-- **All rows** are listed by event and age. -/
theorem Numbered.lists_all (hs : s.Numbered) :
    s.shelf.Does .all (.listed s.all) s.shelf := by
  rw [all, mapM_entry]
  have hperm := List.mergeSort_perm s.rows Row.isBeforeByEvent
  have hnodup := hperm.nodup_iff.2 hs.nodup
  refine .all (hperm.map Row.entry) (List.pairwise_map.2 ?_)
  have hsorted := Row.pairwise_isBeforeByEvent s.rows
  exact (hsorted.and hnodup).imp_of_mem fun ha hb h =>
    hs.precedes (hperm.mem_iff.1 ha) (hperm.mem_iff.1 hb) h.2 h.1

theorem Numbered.append (hs : s.Numbered) {row : Row} (h : row.number = s.nextNumber) :
    Numbered ⟨s.rows ++ [row]⟩ := by
  refine List.pairwise_append.2 ⟨hs, List.pairwise_singleton _ _, fun a ha b hb => ?_⟩
  rw [List.mem_singleton.1 hb, h]
  exact number_lt_nextNumber ha

/-- The row with a key is the only one that is taken away. -/
theorem Valid.filter_isFor {row : Row} {xs ys : List Row} (hs : s.Valid)
    (hrows : s.rows = xs ++ row :: ys) :
    s.rows.filter (fun r => !r.isFor row.event row.name) = xs ++ ys := by
  have hfor : (fun r : Row => !r.isFor row.event row.name) = fun r => r.key != row.key := by
    funext r
    rw [bne, Bool.eq_iff_iff.2 (Row.isFor_iff.trans beq_iff_eq.symm)]
    rfl
  rw [Valid, hrows] at hs
  rw [hfor, hrows, filter_bne_key hs]

end Storage

/-! ## Databases -/

namespace Database

/-- A database has the entries of a shelf, one for each key, and numbers tell in
    which order they were written. -/
structure Shows (d : Database) (s : Shelf) : Prop where
  newest : 1 ≤ Tables.newest d.versions
  numbered : d.reactions.Numbered
  valid : d.reactions.Valid
  entries : d.reactions.shelf = s

variable {d : Database} {s : Shelf}

theorem openWith?_blank : openWith? .blank = some fresh := rfl

theorem shows_fresh : fresh.Shows [] :=
  ⟨Int.le_refl 1, .nil, Storage.valid_empty, rfl⟩

/-- Opening a database that was open leaves it as it is. -/
theorem openWith?_tables (h : 1 ≤ Tables.newest d.versions) : openWith? d.tables = some d := by
  have hmigrate : d.tables.migrate = d.tables := if_neg (Int.not_lt.2 h)
  rw [openWith?, hmigrate]
  rfl

namespace Shows

theorem keys (h : d.Shows s) : (s.map Entry.key).Nodup := by
  rw [← h.entries, Storage.shelf, List.map_map]
  exact h.valid

theorem free_iff (h : d.Shows s) {e n : String} :
    s.Free e n ↔ d.reactions.find? e n = none := h.entries ▸ Storage.free_iff

theorem append (h : d.Shows s) {row : Row} (hnumber : row.number = d.reactions.nextNumber)
    (hfree : d.reactions.find? row.event row.name = none) :
    Shows { d with reactions := ⟨d.reactions.rows ++ [row]⟩ } (s ++ [row.entry]) := by
  refine ⟨h.newest, h.numbered.append hnumber, h.valid.append hfree, ?_⟩
  rw [← h.entries, Storage.shelf, List.map_append]
  rfl

theorem create (h : d.Shows s) (now : Int) {r : Reaction} (hr : r.steps.Sorted) :
    ∃ t, s.Does (.create now r) (d.perform (.create now r)).1 t ∧
      (d.perform (.create now r)).2.Shows t := by
  rw [perform]
  cases hf : d.reactions.find? r.event r.name with
  | some row =>
    have htaken : ¬s.Free r.event r.name := by simp [h.free_iff, hf]
    rw [Storage.create_of_find? hf]
    exact ⟨s, .conflict htaken, h⟩
  | none =>
    have hentry : (d.reactions.rowOf now r).entry = ⟨r.event, r.name, .ok r.normalize, now⟩ := by
      rw [Row.entry, Storage.reaction_rowOf hr]
      rfl
    rw [Storage.create_eq_ok.2 ⟨hf, rfl⟩]
    refine ⟨_, .create (h.free_iff.2 hf), ?_⟩
    rw [← hentry]
    exact h.append rfl hf

theorem insertRaw (h : d.Shows s) (e n : String) (script steps : Cell) (createdAt : Int) :
    ∃ t, s.Does (.insertRaw e n script steps createdAt)
        (d.perform (.insertRaw e n script steps createdAt)).1 t ∧
      (d.perform (.insertRaw e n script steps createdAt)).2.Shows t := by
  rw [perform, Storage.insertRaw]
  cases hf : d.reactions.find? e n with
  | some row =>
    have htaken : ¬s.Free e n := by simp [h.free_iff, hf]
    exact ⟨s, .refuse htaken, h⟩
  | none =>
    have happend : Shows { d with reactions := ⟨d.reactions.rows ++
        [⟨d.reactions.nextNumber, e, n, script, steps, createdAt⟩]⟩ } _ := h.append rfl hf
    exact ⟨_, .insert (h.free_iff.2 hf), happend⟩

theorem delete (h : d.Shows s) (e n : String) :
    ∃ t, s.Does (.delete e n) (d.perform (.delete e n)).1 t ∧
      (d.perform (.delete e n)).2.Shows t := by
  rw [perform]
  cases hf : d.reactions.find? e n with
  | none =>
    rw [Storage.delete_of_find?_eq_none hf]
    exact ⟨s, .missing (h.free_iff.2 hf), h⟩
  | some row =>
    obtain ⟨xs, ys, hrows⟩ := List.append_of_mem (List.mem_of_find?_eq_some hf)
    have hdelete := Storage.delete_eq_ok.2 ⟨Option.isSome_of_eq_some hf, rfl⟩
    obtain ⟨rfl, rfl⟩ := Prod.mk.inj (Storage.find?_key hf)
    have hs : s = xs.map Row.entry ++ row.entry :: ys.map Row.entry := by
      rw [← h.entries, Storage.shelf, hrows, List.map_append, List.map_cons]
    rw [hdelete]
    refine ⟨_, .delete hs rfl, h.newest, h.numbered.filter _, h.valid.delete hdelete, ?_⟩
    rw [Storage.shelf, h.valid.filter_isFor hrows]
    exact List.map_append

theorem get (h : d.Shows s) (e n : String) :
    s.Does (.get e n) (.found (d.reactions.get e n)) s := by
  rw [Storage.get]
  cases hf : d.reactions.find? e n with
  | none => exact .nothing (h.free_iff.2 hf)
  | some row =>
    have hrow : row.entry ∈ s :=
      h.entries ▸ List.mem_map_of_mem (List.mem_of_find?_eq_some hf)
    exact .found hrow (Storage.find?_key hf)

/-- **A command** is answered as the shelf answers it. -/
theorem perform (h : d.Shows s) {c : Command} (hc : c.Sorted) :
    ∃ t, s.Does c (d.perform c).1 t ∧ (d.perform c).2.Shows t := by
  cases c with
  | create now r => exact h.create now hc
  | insertRaw e n script steps createdAt => exact h.insertRaw e n script steps createdAt
  | delete e n => exact h.delete e n
  | get e n => exact ⟨s, h.get e n, h⟩
  | forEvent e => exact ⟨s, h.entries ▸ h.numbered.lists_forEvent e, h⟩
  | all => exact ⟨s, h.entries ▸ h.numbered.lists_all, h⟩
  | count =>
    have hcount : d.reactions.count = s.length := by
      rw [← h.entries, Storage.shelf, List.length_map, Storage.count]
    rw [Database.perform, hcount]
    exact ⟨s, .count, h⟩
  | reopen =>
    rw [Database.perform, openWith?_tables h.newest]
    exact ⟨s, .reopen, h⟩

/-- Commands are answered as the shelf answers them. -/
theorem performAll {cs : List Command} (hcs : ∀ c ∈ cs, c.Sorted) :
    ∀ {d : Database} {s : Shelf}, d.Shows s →
      ∃ t, s.DoesAll cs (d.performAll cs).1 t ∧ (d.performAll cs).2.Shows t := by
  induction cs with
  | nil => exact fun h => ⟨_, .nil, h⟩
  | cons c cs ih =>
    intro d s h
    obtain ⟨t, hdoes, h⟩ := h.perform (hcs c List.mem_cons_self)
    obtain ⟨u, hall, h⟩ := ih (fun c hc => hcs c (List.mem_cons_of_mem _ hc)) h
    exact ⟨u, .cons hdoes hall, h⟩

end Shows

/-- What fails, and what only reads, leaves the database as it is. -/
theorem perform_of_isFailure (h : 1 ≤ Tables.newest d.versions) {c : Command}
    (hc : (d.perform c).1.IsFailure ∨ ¬c.Writes) : (d.perform c).2 = d := by
  cases c with
  | create now r =>
    simp only [perform] at hc ⊢
    cases hresult : d.reactions.create now r with
    | ok t => simp [hresult, write, Reply.IsFailure, Command.Writes] at hc
    | error e => rfl
  | insertRaw e n script steps createdAt =>
    simp only [perform] at hc ⊢
    cases hresult : d.reactions.insertRaw e n script steps createdAt with
    | some t => simp [hresult, Reply.IsFailure, Command.Writes] at hc
    | none => rfl
  | delete e n =>
    simp only [perform] at hc ⊢
    cases hresult : d.reactions.delete e n with
    | ok t => simp [hresult, write, Reply.IsFailure, Command.Writes] at hc
    | error e => rfl
  | get | forEvent | all | count => rfl
  | reopen => rw [perform, openWith?_tables h]

/-- A database has the entries of a shelf, and each next command fails where it
    fails for them; then, or if it only reads, the database stays as it is. -/
structure Keeps (d : Database) (s : Shelf) : Prop where
  entries : d.reactions.rows.map Row.entry = s
  keys : (s.map Entry.key).Nodup
  fails : ∀ c : Command, c.Sorted → ((d.perform c).1.IsFailure ↔ s.Fails c)
  stays : ∀ c : Command, (d.perform c).1.IsFailure ∨ ¬c.Writes → (d.perform c).2 = d

/-- **A database is a shelf** from its first opening on: it answers any commands
    as the shelf does, and has its entries after them. -/
theorem keeps_shelf (cs : List Command) (hcs : ∀ c ∈ cs, c.Sorted) :
    openWith? .blank = some fresh ∧
      ∃ s : Shelf, Shelf.DoesAll [] cs (fresh.performAll cs).1 s ∧
        (fresh.performAll cs).2.Keeps s := by
  obtain ⟨s, hall, h⟩ := shows_fresh.performAll hcs
  refine ⟨openWith?_blank, s, hall, h.entries, h.keys, fun c hc => ?_, fun c hc => ?_⟩
  · obtain ⟨t, hdoes, -⟩ := h.perform hc
    exact hdoes.isFailure_iff h.keys
  · exact perform_of_isFailure h.newest hc

/-- A bell with a strange name beside a row whose steps are no text: the bells of
    the door can be read, those of all doors cannot; a second bell is refused. -/
theorem keeps_shelf_bell :
    let bell : Reaction := ⟨"\x22\u0000é", "door", "", [("a", ⟨"", "chime", "ring", ""⟩)]⟩
    let cs : List Command :=
      [.create 7 bell, .insertRaw "gate" "bell" (.text "") (.blob ⟨#[255]⟩) (-7)]
    let d := (fresh.performAll cs).2
    (∃ s : Shelf, Shelf.DoesAll [] cs [.written (.ok ()), .inserted true] s ∧ s.length = 2) ∧
      ¬(d.perform (.forEvent "door")).1.IsFailure ∧ (d.perform .all).1.IsFailure ∧
      (d.perform (.create 9 bell)).1 = .written (.error (.conflict "door" bell.name)) ∧
      (d.perform (.create 9 bell)).2 = d := by
  intro bell cs d
  have hbell : bell.steps.Sorted := List.pairwise_singleton _ _
  have hcs : ∀ c ∈ cs, c.Sorted := by simp [cs, Command.Sorted, hbell]
  have hrows : d.reactions.rows = [Storage.empty.rowOf 7 bell,
      ⟨2, "gate", "bell", .text "", .blob ⟨#[255]⟩, -7⟩] := rfl
  obtain ⟨-, s, hall, hkeeps⟩ := keeps_shelf cs hcs
  obtain rfl : d.reactions.rows.map Row.entry = s := hkeeps.entries
  refine ⟨⟨_, hall, rfl⟩, ?_, ?_, rfl, ?_⟩
  · rw [hkeeps.fails (.forEvent "door") trivial, hrows]
    simp [Shelf.Fails, Row.entry, Storage.reaction_rowOf hbell, Entry.Unreadable]
  · rw [hkeeps.fails .all trivial, hrows]
    exact ⟨_, List.mem_cons_of_mem _ List.mem_cons_self, _, rfl⟩
  · exact hkeeps.stays _ (.inl ⟨_, rfl⟩)

end Database

end Reactor
