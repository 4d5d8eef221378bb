/-
  The shape of JSON values.

  * `Json.induct` is the induction over values, with what lists and objects hold
    given as members;
  * `Json.Proper`: a value that a 64-bit program holds;
  * `depth` counts lists and objects inside each other;
  * `passed` is what a script makes of a value that it passes on; it keeps the
    depth (`depth_passed`), and does nothing a second time (`passed_passed`).
-/
import Reactor.Proofs.Decimal
import Reactor.Proofs.Fields
import Reactor.Word

namespace Reactor.Json

/-- Induction over a value. -/
@[elab_as_elim]
theorem induct {motive : Json → Prop} (null : motive .null) (bool : ∀ b, motive (.bool b))
    (int : ∀ i, motive (.int i)) (float : ∀ x, motive (.float x)) (str : ∀ s, motive (.str s))
    (arr : ∀ items, (∀ j ∈ items, motive j) → motive (.arr items))
    (obj : ∀ fields : Fields Json, (∀ k j, (k, j) ∈ fields → motive j) → motive (.obj fields))
    (j : Json) : motive j := by
  refine @Json.rec motive (fun items => ∀ j ∈ items, motive j)
    (fun fields => ∀ k j, (k, j) ∈ fields → motive j) (fun f => motive f.2)
    null bool int float str arr obj nofun ?_ nofun ?_ (fun _ _ h => h) j
  · exact fun j items hj hitems => List.forall_mem_cons.2 ⟨hj, hitems⟩
  · rintro f fields hf hfields k j (_ | ⟨_, hmem⟩)
    · exact hf
    · exact hfields k j hmem

/-! ## Proper values -/

/-- A value of a 64-bit program: its integers have 64 bits, with or without a
    sign, its floats are finite, its objects are sorted, and its lists fit. -/
inductive Proper : Json → Prop
  | null : Proper .null
  | bool (b : Bool) : Proper (.bool b)
  | int {i : Int} : -(Word.count 63 : Int) ≤ i → i < Word.count 64 → Proper (.int i)
  | float {x : Float} : Decimal.isFinite x = true → Proper (.float x)
  | str (s : String) : Proper (.str s)
  | arr {items : List Json} : items.length < Word.count 63 → (∀ j ∈ items, Proper j) →
      Proper (.arr items)
  | obj {fields : Fields Json} : fields.Sorted → (∀ k j, (k, j) ∈ fields → Proper j) →
      Proper (.obj fields)

/-! ## Depth -/

mutual

/-- How deep lists and objects nest. -/
def depth : Json → Nat
  | .arr items => itemsDepth items + 1
  | .obj fields => fieldsDepth fields + 1
  | _ => 0

/-- How deep the items of a list nest. -/
def itemsDepth : List Json → Nat
  | [] => 0
  | j :: items => max (depth j) (itemsDepth items)

/-- How deep the fields of an object nest. -/
def fieldsDepth : List (String × Json) → Nat
  | [] => 0
  | (_, j) :: fields => max (depth j) (fieldsDepth fields)

end

attribute [local simp] depth itemsDepth fieldsDepth

variable {d : Nat}

theorem itemsDepth_le {items : List Json} : itemsDepth items ≤ d ↔ ∀ j ∈ items, depth j ≤ d := by
  induction items with
  | nil => simp
  | cons j items ih => simp only [itemsDepth, Nat.max_le, ih, List.forall_mem_cons]

theorem fieldsDepth_le {fields : Fields Json} :
    fieldsDepth fields ≤ d ↔ ∀ k j, (k, j) ∈ fields → depth j ≤ d := by
  induction fields with
  | nil => simp
  | cons f fields ih =>
    obtain ⟨k, j⟩ := f
    simp only [fieldsDepth, Nat.max_le, ih, List.mem_cons, Prod.mk.injEq]
    constructor
    · rintro ⟨hj, hall⟩ k' j' (⟨rfl, rfl⟩ | hmem)
      · exact hj
      · exact hall k' j' hmem
    · exact fun hall => ⟨hall k j (.inl ⟨rfl, rfl⟩), fun k' j' hmem => hall k' j' (.inr hmem)⟩

/-- A field of an object nests less deep. -/
theorem depth_lt_of_get? {j v : Json} {k : String} (h : j.get? k = some v) : depth v < depth j := by
  cases j with
  | obj fields =>
    rw [depth]
    exact Nat.lt_succ_of_le (fieldsDepth_le.1 (Nat.le_refl _) k v (Fields.mem_of_get? h))
  | _ => cases h

/-! ## What a script passes on -/

mutual

/-- A value as a script passes it on: an empty list becomes an empty object, and
    an integer that has no 64 bits with a sign becomes a float. -/
def passed : Json → Json
  | .int i => if Word.isSigned i then .int i else .float (Decimal.ofInt i)
  | .arr items => if items.isEmpty then .obj [] else .arr (passedItems items)
  | .obj fields => .obj (passedFields fields)
  | j => j

/-- The items of a list as a script passes them on. -/
def passedItems : List Json → List Json
  | [] => []
  | j :: items => passed j :: passedItems items

/-- The fields of an object as a script passes them on. -/
def passedFields : List (String × Json) → List (String × Json)
  | [] => []
  | (k, j) :: fields => (k, passed j) :: passedFields fields

end

attribute [local simp] passed passedItems passedFields

theorem passedItems_eq (items : List Json) : passedItems items = items.map passed := by
  induction items with
  | nil => simp
  | cons j items ih => simp [ih]

theorem passedFields_eq (fields : Fields Json) :
    passedFields fields = fields.map fun f => (f.1, passed f.2) := by
  induction fields with
  | nil => simp
  | cons f fields ih => simp [ih]

theorem passed_arr {items : List Json} (h : items ≠ []) :
    passed (.arr items) = .arr (items.map passed) := by
  simp [h, passedItems_eq]

theorem passed_obj (fields : Fields Json) :
    passed (.obj fields) = .obj (fields.map fun f => (f.1, passed f.2)) := by
  simp [passedFields_eq]

/-- **Passing on a second time changes nothing.** -/
theorem passed_passed (j : Json) : j.passed.passed = j.passed := by
  induction j using induct with
  | null | bool | float | str => rfl
  | int i =>
    rw [passed]
    split
    · rename_i hi; rw [passed, if_pos hi]
    · rfl
  | arr items ih =>
    by_cases hnil : items = []
    · subst hnil; rfl
    · rw [passed_arr hnil, passed_arr (by rwa [Ne, List.map_eq_nil_iff]), List.map_map]
      exact congrArg _ (List.map_congr_left ih)
  | obj fields ih =>
    rw [passed_obj, passed_obj, List.map_map]
    exact congrArg _ (List.map_congr_left fun (k, j) hf => congrArg (k, ·) (ih k j hf))

theorem passedFields_passedFields (fields : Fields Json) :
    passedFields (passedFields fields) = passedFields fields := by
  have := passed_passed (.obj fields)
  simp only [passed] at this
  exact obj.inj this

/-- **Passing on keeps the depth.** -/
theorem depth_passed (j : Json) : j.passed.depth = j.depth := by
  induction j using induct with
  | null | bool | float | str => rfl
  | int i => rw [passed]; split <;> rfl
  | arr items ih =>
    by_cases hnil : items = []
    · subst hnil; rfl
    · rw [passed_arr hnil, depth, depth]
      refine congrArg (· + 1) (Nat.le_antisymm ?_ ?_)
      · rw [itemsDepth_le, List.forall_mem_map]
        exact fun j hj => ih j hj ▸ itemsDepth_le.1 (Nat.le_refl _) j hj
      · rw [itemsDepth_le]
        exact fun j hj => ih j hj ▸ itemsDepth_le.1 (Nat.le_refl _) _ (List.mem_map_of_mem hj)
  | obj fields ih =>
    rw [passed_obj, depth, depth]
    refine congrArg (· + 1) (Nat.le_antisymm ?_ ?_)
    · rw [fieldsDepth_le]
      intro k j hmem
      obtain ⟨⟨k, j⟩, hf, hkj⟩ := List.mem_map.1 hmem
      cases hkj
      exact ih k j hf ▸ fieldsDepth_le.1 (Nat.le_refl _) k j hf
    · rw [fieldsDepth_le]
      intro k j hf
      exact ih k j hf ▸ fieldsDepth_le.1 (Nat.le_refl _) k _ (List.mem_map.2 ⟨(k, j), hf, rfl⟩)

theorem depth_passedFields (fields : Fields Json) :
    (obj (passedFields fields)).depth = (obj fields).depth := by
  have := depth_passed (.obj fields)
  rwa [passed] at this

/-- What is passed on is proper. -/
theorem Proper.passed {j : Json} (hj : j.Proper) : j.passed.Proper := by
  induction hj with
  | null => exact .null
  | bool b => exact .bool b
  | @int i hlow hhigh =>
    rw [Json.passed]
    split
    · exact .int hlow hhigh
    · rename_i hi
      simp only [Word.isSigned, Bool.and_eq_true, decide_eq_true_eq, not_and, Int.not_lt] at hi
      exact .float (Decimal.isFinite_ofInt (hi hlow) hhigh)
  | float hx => exact .float hx
  | str s => exact .str s
  | @arr items hlength _ ih =>
    by_cases hnil : items = []
    · subst hnil; exact .obj .nil nofun
    · rw [passed_arr hnil]
      refine .arr (by rwa [List.length_map]) ?_
      rwa [List.forall_mem_map]
  | @obj fields hsorted _ ih =>
    rw [passed_obj]
    refine .obj (hsorted.map (g := fun _ j => j.passed)) fun k j hmem => ?_
    obtain ⟨⟨k, j⟩, hf, hkj⟩ := List.mem_map.1 hmem
    cases hkj
    exact ih k j hf

theorem Proper.passedFields {fields : Fields Json} (hj : (Json.obj fields).Proper) :
    (Json.obj (Json.passedFields fields)).Proper := by
  have := hj.passed
  rwa [Json.passed] at this

end Reactor.Json
