import Mathlib.Algebra.Order.Ring.Rat
import Mathlib.Algebra.BigOperators.Group.List.Basic

/-!
# Numbers with infinities and a nan

The values a floating-point variable can hold, a number standing for the rational it is exactly.
Sums and comparisons of numbers are those of the rationals; an infinity absorbs numbers, the nan
absorbs everything and compares to nothing.
-/

inductive FloatValue where
  | num (q : ℚ)
  | inf (negative : Bool)
  | nan
  deriving DecidableEq, Repr

namespace FloatValue

/-! ### Sums -/

def add : FloatValue → FloatValue → FloatValue
  | num p, num q => num (p + q)
  | num _, inf s => inf s
  | inf s, num _ => inf s
  | inf s, inf s' => if s = s' then inf s else nan
  | _, _ => nan

instance : Zero FloatValue := ⟨num 0⟩

instance : Add FloatValue := ⟨add⟩

theorem zero_def : (0 : FloatValue) = num 0 := rfl

@[simp] theorem num_add_num (p q : ℚ) : num p + num q = num (p + q) := rfl

@[simp] theorem num_add_inf (p : ℚ) (s : Bool) : num p + inf s = inf s := rfl

@[simp] theorem inf_add_num (s : Bool) (p : ℚ) : inf s + num p = inf s := rfl

@[simp] theorem inf_add_inf (s s' : Bool) :
    inf s + inf s' = if s = s' then inf s else nan := rfl

@[simp] theorem nan_add (x : FloatValue) : nan + x = nan := by cases x <;> rfl

@[simp] theorem add_nan (x : FloatValue) : x + nan = nan := by cases x <;> rfl

instance : AddCommMonoid FloatValue where
  add_assoc x y z := by
    cases x with
    | nan => simp
    | num p =>
      cases y with
      | nan => simp
      | num q => cases z <;> simp [add_assoc]
      | inf s =>
        cases z with
        | inf s' => by_cases h : s = s' <;> simp [h]
        | _ => simp
    | inf s =>
      cases y with
      | nan => simp
      | num q => cases z <;> simp
      | inf s' =>
        cases z with
        | nan => simp
        | num q => by_cases h : s = s' <;> simp [h]
        | inf s'' => cases s <;> cases s' <;> cases s'' <;> simp
  zero_add x := by cases x <;> simp [zero_def]
  add_zero x := by cases x <;> simp [zero_def]
  add_comm x y := by
    cases x <;> cases y <;> simp [add_comm, eq_comm]
    split_ifs with h
    · rw [h]
    · rfl
  nsmul := nsmulRec

/-! ### Numbers -/

/-- The number held, if it is one. -/
def num? : FloatValue → Option ℚ
  | num q => some q
  | _ => none

def IsNum (x : FloatValue) : Prop := ∃ q, x = num q

theorem isNum_iff {x : FloatValue} : x.IsNum ↔ x.num?.isSome = true := by
  cases x <;> simp [IsNum, num?]

instance : DecidablePred IsNum := fun _ => decidable_of_iff' _ isNum_iff

theorem isNum_add {x y : FloatValue} (h : (x + y).IsNum) : x.IsNum ∧ y.IsNum := by
  obtain ⟨q, hq⟩ := h
  cases x <;> cases y <;> simp_all [IsNum]
  split at hq <;> cases hq

/-- The number held, zero for what is none. -/
def read (x : FloatValue) : ℚ := x.num?.getD 0

@[simp] theorem read_num (q : ℚ) : (num q).read = q := rfl

@[simp] theorem map_read_num (qs : List ℚ) : (qs.map num).map read = qs := by
  simp [Function.comp_def]

theorem num_read {x : FloatValue} (h : x.IsNum) : num x.read = x := by
  obtain ⟨q, rfl⟩ := h
  rfl

theorem exists_map_num {xs : List FloatValue} (h : ∀ x ∈ xs, x.IsNum) :
    ∃ qs : List ℚ, xs = qs.map num := by
  induction xs with
  | nil => exact ⟨[], rfl⟩
  | cons x xs ih =>
    obtain ⟨⟨q, rfl⟩, hxs⟩ := List.forall_mem_cons.1 h
    obtain ⟨qs, rfl⟩ := ih hxs
    exact ⟨q :: qs, rfl⟩

/-! ### Order -/

/-- `x < y`. -/
def below : FloatValue → FloatValue → Bool
  | num p, num q => decide (p < q)
  | num _, inf s => !s
  | inf s, num _ => s
  | inf s, inf s' => s && !s'
  | _, _ => false

/-- `x == y`. -/
def same : FloatValue → FloatValue → Bool
  | num p, num q => decide (p = q)
  | inf s, inf s' => s == s'
  | _, _ => false

@[simp] theorem below_num (p q : ℚ) : below (num p) (num q) = decide (p < q) := rfl

@[simp] theorem same_num (p q : ℚ) : same (num p) (num q) = decide (p = q) := rfl

end FloatValue
