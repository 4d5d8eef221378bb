/-
  What calls do.

  Each lemma says when a call on the active reactions or on the storage
  succeeds, and what it gives and leaves behind in either case.
-/
import Reactor.Http.Access
import Reactor.Proofs.Storage
import Reactor.Proofs.Store

namespace Reactor.Http

/-- A service with other active reactions. -/
def Service.withStore (s : Service) (t : Store) : Service :=
  { s with engine := { s.engine with store := t } }

namespace Access

theorem run_create (r : Reaction) (s : Service) :
    (∃ t, s.storage.create s.now r = .ok t ∧ (create r).run s = (.ok (), { s with storage := t })) ∨
      ∃ row, s.storage.find? r.event r.name = some row ∧
        (create r).run s = (.error (.conflict r.event r.name), s) := by
  cases hf : s.storage.find? r.event r.name with
  | none =>
    have hc : s.storage.create s.now r = .ok _ := Storage.create_eq_ok.2 ⟨hf, rfl⟩
    exact Or.inl ⟨_, hc, by rw [run, hc]; rfl⟩
  | some row => exact Or.inr ⟨row, rfl, by rw [run, Storage.create_of_find? hf]; rfl⟩

theorem run_delete (e n : String) (s : Service) :
    (∃ t, s.storage.delete e n = .ok t ∧ (delete e n).run s = (.ok (), { s with storage := t })) ∨
      s.storage.find? e n = none ∧ (delete e n).run s = (.error (.notFound e n), s) := by
  cases hf : s.storage.find? e n with
  | none => exact Or.inr ⟨rfl, by rw [run, Storage.delete_of_find?_eq_none hf]; rfl⟩
  | some row =>
    have hd : s.storage.delete e n = .ok _ := Storage.delete_eq_ok.2 ⟨by rw [hf]; rfl, rfl⟩
    exact Or.inl ⟨_, hd, by rw [run, hd]; rfl⟩

theorem run_activate (r : Reaction) (s : Service) :
    (∃ t, s.engine.store.add r.normalize = .ok t ∧ (activate r).run s = (.ok (), s.withStore t)) ∨
      ∃ r', s.engine.store.find? r.event r.name = some r' ∧
        (activate r).run s = (.error (.duplicate r.event r.name), s) := by
  cases hf : s.engine.store.find? r.event r.name with
  | none =>
    have ha : s.engine.store.add r.normalize = .ok _ := Store.add_eq_ok.2 ⟨hf, rfl⟩
    exact Or.inl ⟨_, ha, by rw [run, Engine.add, ha]; rfl⟩
  | some r' =>
    exact Or.inr ⟨r', rfl, by rw [run, Engine.add, Store.add_of_find? (r := r.normalize) hf]; rfl⟩

theorem run_deactivate (e n : String) (s : Service) :
    (∃ r t, s.engine.store.remove e n = .ok (r, t) ∧
        (deactivate e n).run s = (.ok (), s.withStore t)) ∨
      s.engine.store.find? e n = none ∧ ∃ f,
        (f = .noReactionsForEvent e ∨ f = .reactionNotFound e n) ∧
        (deactivate e n).run s = (.error f, s) := by
  cases hf : s.engine.store.find? e n with
  | none =>
    refine Or.inr ⟨rfl, ?_⟩
    rcases Store.remove_of_find?_eq_none hf with h | h
    · exact ⟨_, Or.inl rfl, by rw [run, Engine.remove, h]; rfl⟩
    · exact ⟨_, Or.inr rfl, by rw [run, Engine.remove, h]; rfl⟩
  | some r =>
    have hr : s.engine.store.remove e n = .ok (r, _) := Store.remove_eq_ok.2 ⟨hf, rfl⟩
    exact Or.inl ⟨r, _, hr, by rw [run, Engine.remove, hr]; rfl⟩

end Access

theorem Handler.run_call {α : Type} (a : Access α) (next : α → Handler) (s : Service) :
    (Handler.call a next).run s = (next (a.run s).1).run (a.run s).2 := rfl

end Reactor.Http
