/-
  The numbers of a file.

  * `Value.Bounded` says that all integers in a value have 64 bits with a sign;
  * `bounded_of_read`: those of a file have;
  * `Decoder.record_keeps`: what the fields of a record keep when they take in
    such values, the record keeps.
-/
import Reactor.Proofs.Except
import Reactor.Toml.Decoder
import Reactor.Toml.Reader

namespace Reactor.Toml

/-- All integers in a value have 64 bits with a sign. -/
inductive Value.Bounded : Value → Prop
  | text (s : String) : Bounded (.text s)
  | int {i : Int} : Word.isSigned i → Bounded (.int i)
  | float (x : Float) : Bounded (.float x)
  | bool (b : Bool) : Bounded (.bool b)
  | moment (m : Moment) : Bounded (.moment m)
  | array {vs : List Value} : (∀ v ∈ vs, Bounded v) → Bounded (.array vs)
  | table {o : Origin} {es : Entries} : (∀ e ∈ es, Bounded e.2) → Bounded (.table o es)
  | tables {rows : List Entries} : (∀ es ∈ rows, ∀ e ∈ es, Bounded e.2) → Bounded (.tables rows)

/-- All integers in a table have 64 bits with a sign. -/
def Entries.Bounded (es : Entries) : Prop := ∀ e ∈ es, e.2.Bounded

/-! ## Tables -/

namespace Entries

theorem bounded_nil : Bounded [] := List.forall_mem_nil _

theorem Bounded.append {es : Entries} (h : es.Bounded) {k : String} {v : Value} (hv : v.Bounded) :
    Bounded (es ++ [(k, v)]) := by
  intro e he
  rcases List.mem_append.1 he with he | he
  · exact h e he
  · rw [List.mem_singleton.1 he]
    exact hv

theorem Bounded.get? {es : Entries} (h : es.Bounded) {k : String} {v : Value}
    (hget : es.get? k = some v) : v.Bounded := by
  induction es with
  | nil => cases hget
  | cons e es ih =>
    rw [Entries.get?] at hget
    split at hget
    · cases hget
      exact h e List.mem_cons_self
    · exact ih (fun e' h' => h e' (List.mem_cons_of_mem _ h')) hget

theorem Bounded.set {es : Entries} (h : es.Bounded) {k : String} {v : Value} (hv : v.Bounded) :
    (es.set k v).Bounded := by
  induction es with
  | nil =>
    intro e he
    rw [List.mem_singleton.1 he]
    exact hv
  | cons e es ih =>
    have htail : Bounded es := fun e' h' => h e' (List.mem_cons_of_mem _ h')
    rw [Entries.set]
    split
    · exact List.forall_mem_cons.2 ⟨hv, htail⟩
    · exact List.forall_mem_cons.2 ⟨h e List.mem_cons_self, ih htail⟩

theorem Bounded.erase {es : Entries} (h : es.Bounded) (k : String) : (es.erase k).Bounded := by
  induction es with
  | nil => exact bounded_nil
  | cons e es ih =>
    have htail : Bounded es := fun e' h' => h e' (List.mem_cons_of_mem _ h')
    rw [Entries.erase]
    split
    · exact htail
    · exact List.forall_mem_cons.2 ⟨h e List.mem_cons_self, ih htail⟩

/-- A change that keeps integers in their bounds. -/
def Keeps (f : Entries → Option Entries) : Prop :=
  ∀ {es es'}, Bounded es → f es = some es' → Bounded es'

theorem Keeps.changeLast {f : Entries → Option Entries} (hf : Keeps f) :
    ∀ {rows rows' : List Entries}, (∀ es ∈ rows, Bounded es) → changeLast f rows = some rows' →
      ∀ es ∈ rows', Bounded es
  | [row], rows', h, hc => by
    obtain ⟨row', hrow, heq⟩ := Option.bind_eq_some_iff.1 hc
    cases heq
    exact List.forall_mem_singleton.2 (hf (h row List.mem_cons_self) hrow)
  | row :: row₂ :: rest, rows', h, hc => by
    obtain ⟨rest', hrest, heq⟩ := Option.bind_eq_some_iff.1 hc
    cases heq
    have htail := hf.changeLast (fun es hes => h es (List.mem_cons_of_mem _ hes)) hrest
    exact List.forall_mem_cons.2 ⟨h row List.mem_cons_self, htail⟩

/-- A change at the end of a path. -/
theorem Keeps.change {fresh : Origin} {passes : Origin → Bool}
    {f : Origin → Entries → Option Entries} (hf : ∀ o, Keeps (f o)) :
    ∀ (path : List String) (o : Origin), Keeps (change fresh passes f path o)
  | [], o, _, _, h, hc => hf o h hc
  | k :: path, o, es, es', h, hc => by
    rw [Entries.change] at hc
    split at hc
    · obtain ⟨inner, hinner, heq⟩ := Option.bind_eq_some_iff.1 hc
      cases heq
      exact h.append (.table (Keeps.change hf path fresh bounded_nil hinner))
    · rename_i o' inner hget
      split at hc
      · obtain ⟨inner', hinner, heq⟩ := Option.bind_eq_some_iff.1 hc
        cases heq
        cases h.get? hget with
        | table hbounded => exact h.set (.table (Keeps.change hf path o' hbounded hinner))
      · cases hc
    · rename_i rows hget
      obtain ⟨rows', hrows, heq⟩ := Option.bind_eq_some_iff.1 hc
      cases heq
      cases h.get? hget with
      | tables hbounded =>
        exact h.set (.tables (Keeps.changeLast (Keeps.change hf path .header) hbounded hrows))
    · cases hc

theorem keeps_extend (path : List String) {v : Value} (hv : v.Bounded) : Keeps (extend path v) := by
  intro es es' h hc
  unfold extend at hc
  split at hc
  · cases hc
  · refine Keeps.change (fun o es es' h hput => ?_) _ _ h hc
    split at hput
    · cases hput
      exact h.append hv
    · cases hput

theorem keeps_openTable (path : List String) : Keeps (openTable path) := by
  intro es es' h hc
  unfold openTable at hc
  split at hc
  · cases hc
  · refine Keeps.change (fun o es es' h hbegin => ?_) _ _ h hc
    split at hbegin
    · cases hbegin
      exact h.append (.table bounded_nil)
    · rename_i inner hget
      cases hbegin
      cases h.get? hget with
      | table hbounded => exact (h.erase _).append (.table hbounded)
    · cases hbegin

theorem keeps_openRow (path : List String) : Keeps (openRow path) := by
  intro es es' h hc
  unfold openRow at hc
  split at hc
  · cases hc
  · refine Keeps.change (fun o es es' h hbegin => ?_) _ _ h hc
    split at hbegin
    · cases hbegin
      exact h.append (.tables (List.forall_mem_singleton.2 bounded_nil))
    · rename_i rows hget
      cases hbegin
      cases h.get? hget with
      | tables hbounded =>
        refine h.set (.tables fun es' hes => ?_)
        rcases List.mem_append.1 hes with hes | hes
        · exact hbounded es' hes
        · rw [List.mem_singleton.1 hes]
          exact bounded_nil
    · cases hbegin

theorem keeps_within (path : List String) {f : Entries → Option Entries} (hf : Keeps f) :
    Keeps (within path f) :=
  Keeps.change (fun _ => hf) path .header

end Entries

/-! ## Values -/

/-- A reader of values that gives bounded ones. -/
def ReadsBounded (read : List Char → Option (Value × List Char)) : Prop :=
  ∀ {cs r v}, read cs = some (v, r) → v.Bounded

theorem isSigned_of_fitting? {i j : Int} (h : fitting? i = some j) : Word.isSigned j := by
  unfold fitting? at h
  split at h
  · rename_i hi
    cases h
    exact hi
  · cases h

theorem isSigned_of_based {base : Nat} {cs r : List Char} {i : Int}
    (h : based base cs = some (i, r)) : Word.isSigned i := by
  obtain ⟨p, -, h⟩ := Option.bind_eq_some_iff.1 h
  obtain ⟨j, hj, heq⟩ := Option.bind_eq_some_iff.1 h
  cases heq
  exact isSigned_of_fitting? hj

theorem isSigned_of_integer {cs r : List Char} {i : Int} (h : integer cs = some (i, r)) :
    Word.isSigned i := by
  unfold integer at h
  split at h
  · exact isSigned_of_based h
  · exact isSigned_of_based h
  · exact isSigned_of_based h
  · obtain ⟨p, -, h⟩ := Option.bind_eq_some_iff.1 h
    obtain ⟨j, hj, heq⟩ := Option.bind_eq_some_iff.1 h
    cases heq
    exact isSigned_of_fitting? hj

theorem numeral_bounded : ReadsBounded numeral := by
  intro cs r v h
  unfold numeral at h
  split at h
  · cases h
    exact .moment _
  · cases h
    exact .float _
  · rename_i hint
    cases h
    exact .int (isSigned_of_integer hint)
  · cases h

theorem atom_bounded : ReadsBounded atom := by
  intro cs r v h
  unfold atom at h
  split at h
  · obtain ⟨p, -, heq⟩ := Option.map_eq_some_iff.1 h
    cases heq
    exact .text _
  · obtain ⟨p, -, heq⟩ := Option.map_eq_some_iff.1 h
    cases heq
    exact .text _
  · cases h
    exact .bool true
  · cases h
    exact .bool false
  · exact numeral_bounded h

theorem items_bounded {value : List Char → Option (Value × List Char)}
    (hvalue : ReadsBounded value) : ∀ (fuel : Nat) {acc : List Value}, (∀ v ∈ acc, v.Bounded) →
      ReadsBounded (items value fuel acc)
  | 0, _, _, _, _, _, h => by cases h
  | fuel + 1, acc, hacc, cs, r, v, h => by
    rw [items] at h
    split at h
    · cases h
      exact .array fun w hw => hacc w (List.mem_reverse.1 hw)
    · obtain ⟨p, hp, h⟩ := Option.bind_eq_some_iff.1 h
      have hcons : ∀ w ∈ p.1 :: acc, w.Bounded := List.forall_mem_cons.2 ⟨hvalue hp, hacc⟩
      dsimp only at h
      split at h
      · exact items_bounded hvalue fuel hcons h
      · cases h
        exact .array fun w hw => hcons w (List.mem_reverse.1 hw)
      · cases h

theorem pairs_bounded {value : List Char → Option (Value × List Char)}
    (hvalue : ReadsBounded value) :
    ∀ (fuel : Nat) {acc : Entries}, acc.Bounded → ReadsBounded (pairs value fuel acc)
  | 0, _, _, _, _, _, h => by cases h
  | fuel + 1, acc, hacc, cs, r, v, h => by
    rw [pairs] at h
    obtain ⟨p, -, h⟩ := Option.bind_eq_some_iff.1 h
    obtain ⟨m, -, h⟩ := Option.bind_eq_some_iff.1 h
    obtain ⟨q, hq, h⟩ := Option.bind_eq_some_iff.1 h
    obtain ⟨acc', hextend, h⟩ := Option.bind_eq_some_iff.1 h
    have hacc' := Entries.keeps_extend p.1 (hvalue hq) hacc hextend
    split at h
    · exact pairs_bounded hvalue fuel hacc' h
    · cases h
      exact .table hacc'
    · cases h

theorem valueTo_bounded : ∀ depth : Nat, ReadsBounded (valueTo depth)
  | 0, cs, r, v, h => atom_bounded h
  | depth + 1, cs, r, v, h => by
    unfold valueTo at h
    split at h
    · rename_i heq
      cases heq
      exact items_bounded (valueTo_bounded depth) _ (List.forall_mem_nil _) h
    · rename_i heq
      cases heq
      split at h
      · cases h
        exact .table Entries.bounded_nil
      · exact pairs_bounded (valueTo_bounded depth) _ Entries.bounded_nil h
    · exact atom_bounded h

/-! ## Files -/

/-- A statement whose value, if it has one, is bounded. -/
def Statement.Bounded : Statement → Prop
  | .entry _ v => v.Bounded
  | _ => True

theorem statement_bounded {cs r : List Char} {st : Statement} (h : statement cs = some (st, r)) :
    st.Bounded := by
  unfold statement at h
  split at h
  · obtain ⟨p, -, h⟩ := Option.bind_eq_some_iff.1 h
    obtain ⟨m, -, h⟩ := Option.bind_eq_some_iff.1 h
    obtain ⟨m', -, heq⟩ := Option.bind_eq_some_iff.1 h
    cases heq
    trivial
  · obtain ⟨p, -, h⟩ := Option.bind_eq_some_iff.1 h
    obtain ⟨m, -, heq⟩ := Option.bind_eq_some_iff.1 h
    cases heq
    trivial
  · obtain ⟨p, -, h⟩ := Option.bind_eq_some_iff.1 h
    obtain ⟨m, -, h⟩ := Option.bind_eq_some_iff.1 h
    obtain ⟨q, hq, heq⟩ := Option.bind_eq_some_iff.1 h
    cases heq
    exact valueTo_bounded _ hq

theorem statementsFrom_bounded : ∀ (fuel : Nat) {cs : List Char} {sts : List Statement},
    statementsFrom fuel cs = some sts → ∀ st ∈ sts, st.Bounded
  | 0, _, _, h => by cases h
  | fuel + 1, cs, sts, h => by
    rw [statementsFrom] at h
    split at h
    · cases h
      exact List.forall_mem_nil _
    · split at h
      · exact statementsFrom_bounded fuel h
      · obtain ⟨p, hp, h⟩ := Option.bind_eq_some_iff.1 h
        obtain ⟨r, -, h⟩ := Option.bind_eq_some_iff.1 h
        obtain ⟨rest, hrest, heq⟩ := Option.bind_eq_some_iff.1 h
        cases heq
        exact List.forall_mem_cons.2 ⟨statement_bounded hp, statementsFrom_bounded fuel hrest⟩

theorem add_bounded {d d' : Draft} {st : Statement} (hd : d.entries.Bounded) (hst : st.Bounded)
    (h : d.add st = some d') : d'.entries.Bounded := by
  cases st with
  | table path =>
    obtain ⟨es, hes, heq⟩ := Option.bind_eq_some_iff.1 h
    cases heq
    exact Entries.keeps_openTable path hd hes
  | row path =>
    obtain ⟨es, hes, heq⟩ := Option.bind_eq_some_iff.1 h
    cases heq
    exact Entries.keeps_openRow path hd hes
  | entry path v =>
    obtain ⟨es, hes, heq⟩ := Option.bind_eq_some_iff.1 h
    cases heq
    exact Entries.keeps_within d.path (Entries.keeps_extend path hst) hd hes

theorem foldlM_bounded : ∀ {sts : List Statement} {d d' : Draft}, d.entries.Bounded →
    (∀ st ∈ sts, st.Bounded) → sts.foldlM Draft.add d = some d' → d'.entries.Bounded
  | [], d, d', hd, _, h => by
    cases h
    exact hd
  | st :: sts, d, d', hd, hsts, h => by
    rw [List.foldlM_cons] at h
    obtain ⟨d₁, hadd, h⟩ := Option.bind_eq_some_iff.1 h
    have hd₁ := add_bounded hd (hsts st List.mem_cons_self) hadd
    exact foldlM_bounded hd₁ (fun st' h' => hsts st' (List.mem_cons_of_mem _ h')) h

/-- **The integers of a file have 64 bits** with a sign. -/
theorem bounded_of_read {text : String} {es : Entries} (h : read text = some es) : es.Bounded := by
  obtain ⟨sts, hsts, h⟩ := Option.bind_eq_some_iff.1 h
  obtain ⟨d, hd, rfl⟩ := Option.map_eq_some_iff.1 h
  refine foldlM_bounded Entries.bounded_nil ?_ hd
  unfold statements at hsts
  split at hsts
  · exact statementsFrom_bounded _ hsts
  · exact statementsFrom_bounded _ hsts

/-! ## Records -/

namespace Decoder

/-- What a field keeps when it takes in a value whose integers are in bounds. -/
def Field.Keeps {σ : Type} (P : σ → Prop) (f : Field σ) : Prop :=
  ∀ ⦃v s s'⦄, Value.Bounded v → P s → f.take v s = .ok s' → P s'

variable {σ : Type} {P : σ → Prop} {fields : List (Field σ)}

theorem takeEntry_keeps (hf : ∀ f ∈ fields, f.Keeps P) {e : String × Value} (he : e.2.Bounded)
    {s s' : σ} (hs : P s) (h : takeEntry fields s e = .ok s') : P s' := by
  unfold takeEntry at h
  split at h
  · rename_i f hfind
    exact hf f (List.mem_of_find?_eq_some hfind) he hs h
  · cases h
    exact hs

theorem takeEntries_keeps (hf : ∀ f ∈ fields, f.Keeps P) : ∀ {es : Entries}, es.Bounded →
    ∀ {s s' : σ}, P s → es.foldlM (takeEntry fields) s = .ok s' → P s'
  | [], _, s, s', hs, h => by
    cases h
    exact hs
  | e :: es, hes, s, s', hs, h => by
    rw [List.foldlM_cons] at h
    obtain ⟨s₁, hs₁, h⟩ := Except.bind_eq_ok.1 h
    have htail : Entries.Bounded es := fun e' h' => hes e' (List.mem_cons_of_mem _ h')
    exact takeEntries_keeps hf htail (takeEntry_keeps hf (hes e List.mem_cons_self) hs hs₁) h

theorem takeInOrder_keeps : ∀ {fields : List (Field σ)} {vs : List Value},
    (∀ f ∈ fields, f.Keeps P) → (∀ v ∈ vs, v.Bounded) → ∀ {s s' : σ}, P s →
      takeInOrder fields vs s = .ok s' → P s'
  | [], vs, _, _, s, s', hs, h => by
    cases h
    exact hs
  | f :: fields, [], _, _, s, s', hs, h => by
    cases h
    exact hs
  | f :: fields, v :: vs, hf, hvs, s, s', hs, h => by
    unfold takeInOrder at h
    rw [List.zip_cons_cons, List.foldlM_cons] at h
    obtain ⟨s₁, hs₁, h⟩ := Except.bind_eq_ok.1 h
    have hkeeps := hf f List.mem_cons_self (hvs v List.mem_cons_self) hs hs₁
    exact takeInOrder_keeps (fun g hg => hf g (List.mem_cons_of_mem _ hg))
      (fun w hw => hvs w (List.mem_cons_of_mem _ hw)) hkeeps h

/-- **What the fields of a record keep**, the record keeps, in whatever form it is
    given. -/
theorem record_keeps {title : String} {d x : σ} (hf : ∀ f ∈ fields, f.Keeps P) (hd : P d)
    {v : Value} (hv : v.Bounded) (h : record title fields d v = .ok x) : P x := by
  cases hv with
  | table hes => exact takeEntries_keeps hf hes hd h
  | array hvs => exact takeInOrder_keeps hf hvs hd h
  | tables hrows =>
    refine takeInOrder_keeps hf (fun w hw => ?_) hd h
    obtain ⟨es, hes, rfl⟩ := List.mem_map.1 hw
    exact .table (hrows es hes)
  | moment => cases h; exact hd
  | text | int | float | bool => cases h

/-- A field whose values all are good. -/
theorem keeps_field {α : Type} {key : String} {dec : Decoder α} {put : α → σ → σ}
    (h : ∀ {v a s}, Value.Bounded v → dec v = .ok a → P s → P (put a s)) :
    (field key dec put).Keeps P := by
  intro v s s' hv hs htake
  obtain ⟨a, ha, heq⟩ := Except.bind_eq_ok.1 htake
  cases heq
  exact h hv ha hs

/-- A natural number is below the bound of its form, and has no more than 63
    bits. -/
theorem natural_lt {title : String} {bound n : Nat} {v : Value} (hv : v.Bounded)
    (h : natural title bound v = .ok n) : n < bound ∧ n < Word.count 63 := by
  cases hv with
  | int hi =>
    rw [natural] at h
    split at h
    · rename_i hle
      cases h
      simp only [Word.isSigned, Bool.and_eq_true, decide_eq_true_iff] at hi
      generalize Word.count 63 = most at hi ⊢
      omega
    · cases h
  | _ => cases h

end Decoder

end Reactor.Toml
