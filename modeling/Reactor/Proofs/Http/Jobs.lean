/-
  What handlers do to reactions, call by call.

  * a `Job` is what the next call of a handler is to do to a reaction, a `Board`
    has the active and the persisted reactions by their keys;
  * `Effect` says what becomes of a job and of the board when the call is made,
    and `Advance` what becomes of the jobs of many handlers;
  * `Owned`: what is persisted is active, or a job will see to it;
  * `Calm`: what is active under a key is persisted, and no job undoes that;
  * `Peaceful`: no job is to take anything out, nor will one be.
-/
import Mathlib.Logic.Function.Basic
import Mathlib.Tactic.MkIffOfInductiveProp
import Reactor.Reaction

namespace Reactor.Http

/-- What tells reactions apart. -/
abbrev Key := String × String

/-- What is to be done to a reaction. -/
inductive Job where
  /-- nothing -/
  | none
  /-- it is to be persisted -/
  | create (r : Reaction)
  /-- it is to be made active -/
  | activate (r : Reaction)
  /-- it is to be made inactive -/
  | deactivate (k : Key)
  /-- it is to be looked for in the storage -/
  | fetch (k : Key)
  /-- it is to be taken out of the storage -/
  | erase (k : Key)
deriving DecidableEq

/-- The kinds of jobs. -/
inductive Task where
  | create | activate | deactivate | fetch | erase
deriving DecidableEq

/-- The kind of a job, and the key that it is about. -/
def Job.target? : Job → Option (Task × Key)
  | none => .none
  | create r => some (.create, r.key)
  | activate r => some (.activate, r.key)
  | deactivate k => some (.deactivate, k)
  | fetch k => some (.fetch, k)
  | erase k => some (.erase, k)

theorem Job.target?_eq_create {j : Job} {k : Key} :
    j.target? = some (.create, k) ↔ ∃ r, j = .create r ∧ r.key = k := by
  cases j <;> simp [target?]

theorem Job.target?_eq_deactivate {j : Job} {k : Key} :
    j.target? = some (.deactivate, k) ↔ j = .deactivate k := by
  cases j <;> simp [target?]

/-- The active and the persisted reactions. -/
structure Board where
  active : Key → Option Reaction
  persisted : Key → Option Reaction

namespace Board

/-- A board with another active reaction under a key, or none. -/
def activate (b : Board) (k : Key) (r? : Option Reaction) : Board :=
  { b with active := Function.update b.active k r? }

/-- A board with another persisted reaction under a key, or none. -/
def persist (b : Board) (k : Key) (r? : Option Reaction) : Board :=
  { b with persisted := Function.update b.persisted k r? }

variable (b : Board) (k k' : Key) (r? : Option Reaction)

@[simp, grind =] theorem activate_active :
    (b.activate k r?).active k' = if k' = k then r? else b.active k' := Function.update_apply ..

@[simp, grind =] theorem activate_persisted : (b.activate k r?).persisted = b.persisted := rfl

@[simp, grind =] theorem persist_persisted :
    (b.persist k r?).persisted k' = if k' = k then r? else b.persisted k' := Function.update_apply ..

@[simp, grind =] theorem persist_active : (b.persist k r?).active = b.active := rfl

end Board

/-- What becomes of a job and of the board. -/
inductive Effect : Job → Board → Job → Board → Prop
  | none {b : Board} : Effect .none b .none b
  | created {b : Board} {r : Reaction} :
      b.persisted r.key = .none → Effect (.create r) b (.activate r) (b.persist r.key (some r))
  | notCreated {b : Board} {r : Reaction} :
      b.persisted r.key ≠ .none → Effect (.create r) b .none b
  | activated {b : Board} {r : Reaction} :
      b.active r.key = .none → Effect (.activate r) b .none (b.activate r.key (some r))
  | notActivated {b : Board} {r : Reaction} :
      b.active r.key ≠ .none → Effect (.activate r) b (.erase r.key) b
  | deactivated {b : Board} {k : Key} :
      b.active k ≠ .none → Effect (.deactivate k) b (.erase k) (b.activate k .none)
  | notDeactivated {b : Board} {k : Key} :
      b.active k = .none → Effect (.deactivate k) b (.fetch k) b
  | found {b : Board} {k : Key} : b.persisted k ≠ .none → Effect (.fetch k) b (.erase k) b
  | notFound {b : Board} {k : Key} : b.persisted k = .none → Effect (.fetch k) b .none b
  | erased {b : Board} {k : Key} : Effect (.erase k) b .none (b.persist k .none)

theorem Effect.of_erase {k : Key} {j : Job} {b b' : Board} (he : Effect (.erase k) b j b') :
    b' = b.persist k .none := by
  cases he
  rfl

/-- What becomes of many jobs: they stay, one that is nothing goes, or one takes
    effect. -/
inductive Advance : List Job → Board → List Job → Board → Prop
  | stays {jobs jobs' : List Job} {b : Board} : jobs.Perm jobs' → Advance jobs b jobs' b
  | ends {jobs jobs' : List Job} {b : Board} : jobs.Perm (.none :: jobs') → Advance jobs b jobs' b
  | works {jobs jobs' rest : List Job} {j j' : Job} {b b' : Board} :
      jobs.Perm (j :: rest) → jobs'.Perm (j' :: rest) → Effect j b j' b' → Advance jobs b jobs' b'

/-! ## Rows have owners -/

/-- What is persisted is active, is to be made active, or is to be erased. -/
def Owned (jobs : List Job) (b : Board) : Prop :=
  ∀ k r, b.persisted k = some r →
    r.key = k ∧ (b.active k = some r ∨ .activate r ∈ jobs ∨ .erase k ∈ jobs)

theorem Owned.perm {jobs jobs' : List Job} {b : Board} (h : Owned jobs b)
    (hp : ∀ j ∈ jobs, j = .none ∨ j ∈ jobs') : Owned jobs' b := by
  intro k r hr
  obtain ⟨hk, h⟩ := h k r hr
  refine ⟨hk, h.imp id (Or.imp (fun h => ?_) fun h => ?_)⟩
  · exact (hp _ h).resolve_left nofun
  · exact (hp _ h).resolve_left nofun

theorem Owned.effect {j j' : Job} {rest : List Job} {b b' : Board} (h : Owned (j :: rest) b)
    (he : Effect j b j' b') : Owned (j' :: rest) b' := by
  intro k r hr
  have hk := h k r
  cases he with
  | none => exact hk hr
  -- the new row is to be made active
  | created hnone => grind
  -- what was to be made active is active now, or its row is to be erased
  | activated => grind
  | notActivated => grind
  -- what was active is to be erased
  | deactivated => grind
  | erased => grind
  | notCreated | notDeactivated | found | notFound => grind

theorem Owned.advance {jobs jobs' : List Job} {b b' : Board} (h : Owned jobs b)
    (ha : Advance jobs b jobs' b') : Owned jobs' b' := by
  cases ha with
  | stays hp => exact h.perm fun j hj => Or.inr (hp.mem_iff.1 hj)
  | ends hp => exact h.perm fun j hj => List.mem_cons.1 (hp.mem_iff.1 hj)
  | works hp hp' he =>
    have h := h.perm fun j hj => Or.inr (hp.mem_iff.1 hj)
    exact (h.effect he).perm fun j hj => Or.inr (hp'.mem_iff.2 hj)

/-! ## Rows that stay -/

/-- How many jobs of a kind there are for a key. -/
def pending (jobs : List Job) (t : Task) (k : Key) : Nat :=
  jobs.countP fun j => j.target? == some (t, k)

theorem pending_perm {jobs jobs' : List Job} (hp : jobs.Perm jobs') (t : Task) (k : Key) :
    pending jobs t k = pending jobs' t k :=
  hp.countP_eq _

theorem pending_cons (j : Job) (jobs : List Job) (t : Task) (k : Key) :
    pending (j :: jobs) t k = pending jobs t k + if j.target? = some (t, k) then 1 else 0 := by
  simp [pending, List.countP_cons]

theorem pending_pos_of_mem {jobs : List Job} {j : Job} {t : Task} {k : Key} (hj : j ∈ jobs)
    (ht : j.target? = some (t, k)) : 0 < pending jobs t k :=
  List.countP_pos_iff.2 ⟨j, hj, by simp [ht]⟩

/-- What is active under a key is persisted, and nothing is about to take it out
    of the storage; what is about to become active is persisted, and alone; and
    as long as there is something to create, there is at most one deletion,
    which finds what it deletes. -/
@[mk_iff]
structure Calm (jobs : List Job) (b : Board) (k : Key) : Prop where
  kept : b.active k ≠ none → b.persisted k = b.active k ∧ pending jobs .activate k = 0 ∧
    pending jobs .fetch k = 0 ∧ pending jobs .erase k = 0
  coming : 0 < pending jobs .activate k → b.active k = none ∧ b.persisted k ≠ none ∧
    pending jobs .activate k = 1 ∧ pending jobs .deactivate k = 0 ∧ pending jobs .fetch k = 0 ∧
    pending jobs .erase k = 0
  written : ∀ r, .activate r ∈ jobs → r.key = k → b.persisted k = some r
  alone : 0 < pending jobs .create k → pending jobs .fetch k = 0 ∧
    pending jobs .deactivate k + pending jobs .erase k ≤ 1 ∧
    (0 < pending jobs .deactivate k → b.active k ≠ none) ∧
    (0 < pending jobs .erase k → b.persisted k ≠ none)

theorem Calm.perm {jobs jobs' : List Job} {b : Board} {k : Key} (h : Calm jobs b k)
    (hp : jobs.Perm jobs') : Calm jobs' b k := by
  have hcount := fun t => pending_perm hp t k
  obtain ⟨hkept, hcoming, hwritten, halone⟩ := h
  simp only [hcount] at hkept hcoming halone
  exact ⟨hkept, hcoming, fun r hr => hwritten r (hp.mem_iff.2 hr), halone⟩

/-- Other keys do not matter. -/
theorem Effect.frame {j j' : Job} {b b' : Board} {k : Key} (he : Effect j b j' b')
    (hj : ∀ t, j.target? ≠ some (t, k)) :
    b'.active k = b.active k ∧ b'.persisted k = b.persisted k ∧ ∀ t, j'.target? ≠ some (t, k) := by
  have hne : ∀ t k', j.target? = some (t, k') → k ≠ k' := fun t k' ht hk => hj t (hk ▸ ht)
  cases he with
  | none | notCreated | notFound => exact ⟨rfl, rfl, nofun⟩
  | created =>
    have hk := hne .create _ rfl
    exact ⟨rfl, by simp [hk], by simp [Job.target?, hk.symm]⟩
  | activated =>
    have hk := hne .activate _ rfl
    exact ⟨by simp [hk], rfl, nofun⟩
  | notActivated =>
    have hk := hne .activate _ rfl
    exact ⟨rfl, rfl, by simp [Job.target?, hk.symm]⟩
  | deactivated =>
    have hk := hne .deactivate _ rfl
    exact ⟨by simp [hk], rfl, by simp [Job.target?, hk.symm]⟩
  | notDeactivated =>
    have hk := hne .deactivate _ rfl
    exact ⟨rfl, rfl, by simp [Job.target?, hk.symm]⟩
  | found =>
    have hk := hne .fetch _ rfl
    exact ⟨rfl, rfl, by simp [Job.target?, hk.symm]⟩
  | erased =>
    have hk := hne .erase _ rfl
    exact ⟨rfl, by simp [hk], nofun⟩

theorem Calm.frame {j j' : Job} {rest : List Job} {b b' : Board} {k : Key}
    (h : Calm (j :: rest) b k) (he : Effect j b j' b') (hj : ∀ t, j.target? ≠ some (t, k)) :
    Calm (j' :: rest) b' k := by
  obtain ⟨hactive, hpersisted, hj'⟩ := he.frame hj
  have hcount : ∀ t, pending (j :: rest) t k = pending (j' :: rest) t k := fun t => by
    rw [pending_cons, pending_cons, if_neg (hj t), if_neg (hj' t)]
  obtain ⟨hkept, hcoming, hwritten, halone⟩ := h
  simp only [hcount, ← hactive, ← hpersisted] at hkept hcoming hwritten halone
  refine ⟨hkept, hcoming, fun r hr hk => ?_, halone⟩
  rcases List.mem_cons.1 hr with rfl | hr
  · exact absurd (by rw [Job.target?, hk]) (hj' .activate)
  · exact hwritten r (List.mem_cons_of_mem _ hr) hk

theorem Calm.effect {j j' : Job} {rest : List Job} {b b' : Board} {k : Key}
    (h : Calm (j :: rest) b k) (he : Effect j b j' b') : Calm (j' :: rest) b' k := by
  by_cases hj : ∀ t, j.target? ≠ some (t, k)
  · exact h.frame he hj
  obtain ⟨t, ht⟩ : ∃ t, j.target? = some (t, k) := by simpa using hj
  have hpos := fun r (hr : Job.activate r ∈ rest) (hk : r.key = k) =>
    pending_pos_of_mem (t := .activate) (k := k) hr (by rw [Job.target?, hk])
  cases he with
  | none => cases ht
  -- without a row nothing is active, and no deletion is left
  | created hnone =>
    cases ht
    simp [calm_iff, pending_cons, Job.target?] at h ⊢
    grind
  -- the row was written before, and it is the only thing that was under way
  | activated =>
    cases ht
    simp [calm_iff, pending_cons, Job.target?] at h ⊢
    grind
  -- nothing is active while something is about to become so
  | notActivated hactive =>
    cases ht
    simp [calm_iff, pending_cons, Job.target?] at h ⊢
    grind
  -- this was the only deletion, and the row is still there
  | deactivated =>
    cases ht
    simp [calm_iff, pending_cons, Job.target?] at h ⊢
    grind
  -- a deletion finds nothing active only if nothing is to be created any more
  | notDeactivated hnone =>
    cases ht
    simp [calm_iff, pending_cons, Job.target?] at h ⊢
    grind
  | notCreated | found | notFound | erased =>
    cases ht
    simp [calm_iff, pending_cons, Job.target?] at h ⊢
    grind

theorem Calm.advance {jobs jobs' : List Job} {b b' : Board} {k : Key} (h : Calm jobs b k)
    (ha : Advance jobs b jobs' b') : Calm jobs' b' k := by
  cases ha with
  | stays hp => exact h.perm hp
  | ends hp => simpa [calm_iff, pending_cons, Job.target?] using h.perm hp
  | works hp hp' he => exact ((h.perm hp).effect he).perm hp'.symm

/-! ## Nothing is taken out -/

/-- A job that takes nothing out. -/
def Job.Adds : Job → Prop
  | none | create _ | activate _ => True
  | _ => False

/-- Whatever was active or persisted still is. -/
structure Board.Keeps (b b' : Board) : Prop where
  active : ∀ k r, b.active k = some r → b'.active k = some r
  persisted : ∀ k r, b.persisted k = some r → b'.persisted k = some r

theorem Board.Keeps.refl (b : Board) : b.Keeps b := ⟨fun _ _ => id, fun _ _ => id⟩

theorem Board.Keeps.trans {a b c : Board} (h : a.Keeps b) (h' : b.Keeps c) : a.Keeps c :=
  ⟨fun k r hr => h'.active k r (h.active k r hr),
    fun k r hr => h'.persisted k r (h.persisted k r hr)⟩

theorem Board.keeps_persist {b : Board} {k : Key} (hnone : b.persisted k = none)
    (r? : Option Reaction) : b.Keeps (b.persist k r?) := by
  refine ⟨fun _ _ => id, fun k' r hr => ?_⟩
  have hk : k' ≠ k := by rintro rfl; rw [hnone] at hr; cases hr
  simpa [hk] using hr

theorem Board.keeps_activate {b : Board} {k : Key} (hnone : b.active k = none)
    (r? : Option Reaction) : b.Keeps (b.activate k r?) := by
  refine ⟨fun k' r hr => ?_, fun _ _ => id⟩
  have hk : k' ≠ k := by rintro rfl; rw [hnone] at hr; cases hr
  simpa [hk] using hr

/-- No job takes anything out, and what is active is persisted. -/
structure Peaceful (jobs : List Job) (b : Board) : Prop where
  adds : ∀ j ∈ jobs, j.Adds
  calm : ∀ k, Calm jobs b k

/-- What is about to become active is not yet. -/
theorem Peaceful.active_eq_none {jobs : List Job} {b : Board} (h : Peaceful jobs b) {r : Reaction}
    (hr : .activate r ∈ jobs) : b.active r.key = none :=
  ((h.calm r.key).coming (pending_pos_of_mem hr rfl)).1

theorem Peaceful.effect {j j' : Job} {rest : List Job} {b b' : Board}
    (h : Peaceful (j :: rest) b) (he : Effect j b j' b') : j'.Adds := by
  have hadds := h.adds j List.mem_cons_self
  cases he with
  | none | created | notCreated | activated | notFound | erased => trivial
  -- what could not be made active would be taken out again
  | notActivated hsome => exact absurd (h.active_eq_none List.mem_cons_self) hsome
  | deactivated | notDeactivated | found => exact hadds.elim

theorem Peaceful.advance {jobs jobs' : List Job} {b b' : Board} (h : Peaceful jobs b)
    (ha : Advance jobs b jobs' b') : Peaceful jobs' b' := by
  refine ⟨fun j hj => ?_, fun k => (h.calm k).advance ha⟩
  cases ha with
  | stays hp => exact h.adds j (hp.mem_iff.2 hj)
  | ends hp => exact h.adds j (hp.mem_iff.2 (List.mem_cons_of_mem _ hj))
  | works hp hp' he =>
    have hcons : Peaceful _ b := ⟨fun j hj => h.adds j (hp.mem_iff.2 hj), fun k => (h.calm k).perm hp⟩
    rcases List.mem_cons.1 (hp'.mem_iff.1 hj) with rfl | hrest
    · exact hcons.effect he
    · exact h.adds j (hp.mem_iff.2 (List.mem_cons_of_mem _ hrest))

end Reactor.Http
