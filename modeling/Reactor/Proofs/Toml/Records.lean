/-
  Records of which some entries are left out.

  * `Thinned` says that of some elements a few of a kind are left out;
    `Thinned.foldlM_eq`: if those change nothing, and the order of the others does
    not matter, the rest makes up the same;
  * `Puts` says what the entries of a record do to it: each puts its own value in
    its place;
  * `record_thinned`: entries that change nothing may be left out;
  * `Reads` says that a record is read from its entries, if those that hold a default
    are there or not; `reads_record` is how this is shown.
-/
import Reactor.Proofs.Except
import Reactor.Toml.Decoder

namespace Reactor.Toml

/-! ## Leaving out -/

/-- Some elements, of which a few of a kind are left out. -/
inductive Thinned {α : Type} (kind : α → Prop) : List α → List α → Prop
  | nil : Thinned kind [] []
  | keep {a : α} {as bs : List α} : Thinned kind as bs → Thinned kind (a :: as) (a :: bs)
  | leave {a : α} {as bs : List α} : kind a → Thinned kind as bs → Thinned kind (a :: as) bs

namespace Thinned

variable {α : Type} {kind : α → Prop} {as bs : List α}

theorem refl (kind : α → Prop) : ∀ as : List α, Thinned kind as as
  | [] => .nil
  | _ :: as => .keep (refl kind as)

theorem map {β : Type} {f : α → β} {kind' : β → Prop} (h : Thinned kind as bs)
    (hkind : ∀ a, kind a → kind' (f a)) : Thinned kind' (as.map f) (bs.map f) := by
  induction h with
  | nil => exact .nil
  | keep _ ih => exact .keep ih
  | leave ha _ ih => exact .leave (hkind _ ha) ih

theorem filter {p : α → Bool} (h : ∀ a, p a = false → kind a) (as : List α) :
    Thinned kind as (as.filter p) := by
  induction as with
  | nil => exact .nil
  | cons a as ih =>
    cases hp : p a with
    | true =>
      rw [List.filter_cons_of_pos hp]
      exact .keep ih
    | false =>
      rw [List.filter_cons_of_neg (by simpa using hp)]
      exact .leave (h a hp) ih

theorem sublist (h : Thinned kind as bs) : bs.Sublist as := by
  induction h with
  | nil => exact .slnil
  | keep _ ih => exact ih.cons_cons _
  | leave _ _ ih => exact ih.cons _

/-- **What is left makes up the same**, if what is left out changes nothing and the
    order does not matter. -/
theorem foldlM_eq {ε σ : Type} {f : σ → α → Except ε σ} (h : Thinned kind as bs)
    (hcomm : as.Pairwise fun a b => ∀ s, (f s a >>= (f · b)) = (f s b >>= (f · a))) {s : σ}
    (hkind : ∀ a ∈ as, kind a → f s a = .ok s) : bs.foldlM f s = as.foldlM f s := by
  induction h generalizing s with
  | nil => rfl
  | @keep a as bs _ ih =>
    obtain ⟨ha, has⟩ := List.pairwise_cons.1 hcomm
    rw [List.foldlM_cons, List.foldlM_cons]
    cases hs : f s a with
    | error e => rfl
    | ok t =>
      refine ih has fun b hb hkindb => ?_
      -- the order does not matter, so what changed nothing before changes nothing after
      have hab := ha b hb s
      rw [hs, hkind b (List.mem_cons_of_mem _ hb) hkindb] at hab
      exact hab.trans hs
  | @leave a as bs hkinda _ ih =>
    rw [List.foldlM_cons, hkind a List.mem_cons_self hkinda]
    exact ih (List.pairwise_cons.1 hcomm).2 fun b hb => hkind b (List.mem_cons_of_mem _ hb)

end Thinned

/-! ## Records -/

namespace Decoder

variable {σ : Type} {fields : List (Field σ)} {d : σ}

/-- Entries that put something into a record, each in a place of its own. -/
structure Puts (fields : List (Field σ)) (ps : List ((String × Value) × (σ → σ))) : Prop where
  takes : ∀ p ∈ ps, ∀ s, takeEntry fields s p.1 = .ok (p.2 s)
  commute : ps.Pairwise fun p q => ∀ s, q.2 (p.2 s) = p.2 (q.2 s)

theorem Puts.foldlM_eq {ps : List ((String × Value) × (σ → σ))} (h : Puts fields ps) (d : σ) :
    (ps.map Prod.fst).foldlM (takeEntry fields) d = .ok (ps.foldl (fun s p => p.2 s) d) := by
  have htakes := h.takes
  clear h
  induction ps generalizing d with
  | nil => rfl
  | cons p ps ih =>
    rw [List.map_cons, List.foldlM_cons, htakes p List.mem_cons_self]
    exact ih _ fun q hq => htakes q (List.mem_cons_of_mem _ hq)

/-- **Entries that change nothing may be left out** of a record. -/
theorem record_thinned {ps : List ((String × Value) × (σ → σ))} (h : Puts fields ps)
    {kind : String × Value → Prop}
    (hkind : ∀ e ∈ ps.map Prod.fst, kind e → takeEntry fields d e = .ok d) {es : Entries}
    (hes : Thinned kind (ps.map Prod.fst) es) (title : String) (o : Origin) :
    record title fields d (.table o es) = .ok (ps.foldl (fun s p => p.2 s) d) := by
  have hcomm : (ps.map Prod.fst).Pairwise fun a b => ∀ s,
      (takeEntry fields s a >>= (takeEntry fields · b)) =
        (takeEntry fields s b >>= (takeEntry fields · a)) := by
    rw [List.pairwise_map]
    refine h.commute.imp_of_mem fun hp hq hpq s => ?_
    rw [h.takes _ hp, h.takes _ hq, Except.ok_bind, Except.ok_bind, h.takes _ hp, h.takes _ hq, hpq]
  rw [record, hes.foldlM_eq hcomm hkind, h.foldlM_eq]

/-- A record all of whose entries change nothing. -/
theorem record_default : ∀ {es : Entries}, (∀ e ∈ es, takeEntry fields d e = .ok d) →
    ∀ (title : String) (o : Origin), record title fields d (.table o es) = .ok d
  | [], _, _, _ => rfl
  | e :: es, h, title, o => by
    have htail := record_default (fun e' h' => h e' (List.mem_cons_of_mem _ h')) title o
    rw [record] at htail ⊢
    rw [List.foldlM_cons, h e List.mem_cons_self]
    exact htail

/-- A decoder reads `x` from some entries, whether those that hold a default are
    there or not, and the default `d` from such entries alone. -/
structure Reads (dec : Decoder σ) (d : σ) (held es : Entries) (x : σ) : Prop where
  thinned : ∀ {es' : Entries}, Thinned (· ∈ held) es es' → dec (.table .header es') = .ok x
  standard : ∀ {es' : Entries}, (∀ e ∈ es', e ∈ held) → dec (.table .header es') = .ok d

/-- **A record is read from its entries**, if the entries of the default change nothing
    in it. -/
theorem reads_record (Good : σ → Prop) (puts : σ → List ((String × Value) × (σ → σ))) {x : σ}
    (hputs : ∀ {y}, Good y → Puts fields (puts y))
    (hall : (puts x).foldl (fun s p => p.2 s) d = x) (hsame : ∀ p ∈ puts d, p.2 d = d)
    (hd : Good d) (hx : Good x) (title : String) :
    Reads (record title fields d) d ((puts d).map Prod.fst) ((puts x).map Prod.fst) x := by
  have hheld : ∀ e ∈ (puts d).map Prod.fst, takeEntry fields d e = .ok d := by
    intro e he
    obtain ⟨p, hp, rfl⟩ := List.mem_map.1 he
    rw [(hputs hd).takes p hp d, hsame p hp]
  constructor
  · intro es' h
    rw [record_thinned (hputs hx) (fun e _ he => hheld e he) h, hall]
  · intro es' h
    exact record_default (fun e he => hheld e (h e he)) title .header

/-! ## Fields -/

theorem takeEntry_field {α : Type} {key : String} {dec : Decoder α} {put : α → σ → σ} {v : Value}
    {a : α} {s t : σ} (hfind : fields.find? (·.key = key) = some (field key dec put))
    (h : dec v = .ok a) (hput : put a s = t) : takeEntry fields s (key, v) = .ok t := by
  rw [takeEntry, hfind, ← hput]
  dsimp only [field]
  rw [h]
  rfl

theorem natural_of_lt {bound n : Nat} (h : n < bound) (title : String) :
    natural title bound (.int n) = .ok n := by
  rw [natural, if_pos ⟨Int.natCast_nonneg n, Int.ofNat_lt.2 h⟩, Int.toNat_natCast]

theorem list_texts (ss : List String) : list text (.array (ss.map .text)) = .ok ss := by
  rw [list, Except.mapM_eq_ok, List.forall₂_map_left_iff]
  exact List.forall₂_same.2 fun _ _ => rfl

end Decoder

end Reactor.Toml
