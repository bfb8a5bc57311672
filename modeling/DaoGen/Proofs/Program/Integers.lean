import DaoGen.Program.Arguments
import DaoGen.Source.Values
import Mathlib.Algebra.Order.Field.Power
import Mathlib.Algebra.Order.Field.Rat
import Mathlib.Tactic.FieldSimp
import Mathlib.Tactic.NormNum
set_option autoImplicit false

/-!
# Integers in decorator arguments

A number literal with signs in front stands for a rational number: that of the literal, negated
once for each minus.  The integer that is read from it is this number, and no step on the way leaves
the integers of 64 bits, unless the literal is two to the power of 63: that is read as the greatest
integer, which is one less (`integerValue_exact_iff`).
-/

namespace DaoGen

open DaoGen.Source (Expr formOf)

/-! ## Numbers that expressions stand for -/

/-- The number that a finite floating point number is. -/
def Binary64.value? : Binary64 → Option ℚ
  | infinite => none
  | finite m exponent => some (m * 2 ^ exponent)

/-- The number that a literal with signs in front stands for. -/
def Source.Expr.quantity? : Expr → Option ℚ
  | .number _ value => value.value?
  | .unary _ operator operand =>
    if operator = "-" then operand.quantity?.map (- ·)
    else if operator = "+" then operand.quantity?
    else none
  | _ => none

/-- Whether an expression is the member for an open origin, perhaps with operators in front. -/
def Source.Expr.usesUndefined : Expr → Bool
  | .member _ _ property => property = undefinedMember
  | .unary _ _ operand => operand.usesUndefined
  | _ => false

namespace Binary64

/-- A multiple of a power of two is whole when the power can be divided out. -/
theorem toNat?_eq_some_iff {x : Binary64} {n : ℕ} :
    x.toNat? = some n ↔ x.value? = some (n : ℚ) := by
  cases x with
  | infinite => exact iff_of_false (by simp [toNat?]) (by simp [value?])
  | finite m exponent =>
    rw [value?, Option.some.injEq, toNat?]
    by_cases hexponent : 0 ≤ exponent
    · obtain ⟨k, rfl⟩ := Int.eq_ofNat_of_zero_le hexponent
      rw [if_pos hexponent, Option.some.injEq, Int.toNat_natCast, zpow_natCast]
      exact_mod_cast Iff.rfl
    · obtain ⟨k, hk⟩ : ∃ k : ℕ, exponent = -(k : ℤ) := ⟨(-exponent).toNat, by omega⟩
      subst hk
      have hpow : (0 : ℚ) < 2 ^ k := by positivity
      have hvalue : (m : ℚ) * 2 ^ (-(k : ℤ)) = n ↔ m = n * 2 ^ k := by
        rw [zpow_neg, zpow_natCast, ← div_eq_mul_inv, div_eq_iff hpow.ne']
        exact_mod_cast Iff.rfl
      rw [if_neg hexponent, hvalue, neg_neg, Int.toNat_natCast]
      have hpos : 0 < 2 ^ k := Nat.two_pow_pos k
      show (if m % 2 ^ k = 0 then some (m / 2 ^ k) else none) = some n ↔ _
      split
      · rename_i hmod
        rw [Option.some.injEq, Nat.div_eq_iff_eq_mul_left hpos (Nat.dvd_of_mod_eq_zero hmod)]
      · rename_i hmod
        refine iff_of_false (by simp) ?_
        rintro rfl
        exact hmod (Nat.mul_mod_left n (2 ^ k))

theorem value?_nonneg {x : Binary64} {q : ℚ} (h : x.value? = some q) : 0 ≤ q := by
  cases x with
  | infinite => cases h
  | finite m exponent =>
    obtain rfl := Option.some.inj h
    positivity

end Binary64

/-! ## Integers that are read -/

theorem greatestInteger_eq : greatestInteger = 2 ^ 63 - 1 := rfl

/-- A literal is read when it is whole and not greater than the bound, and as itself below it. -/
theorem literalInteger_eq_some_iff {x : Binary64} {v : ℤ} : literalInteger x = some v ↔
    ∃ n : ℕ, x.value? = some (n : ℚ) ∧ n ≤ 2 ^ 63 ∧ v = if n = 2 ^ 63 then 2 ^ 63 - 1 else n := by
  unfold literalInteger
  rw [Option.bind_eq_some_iff]
  refine exists_congr fun n => ?_
  rw [Binary64.toNat?_eq_some_iff]
  refine and_congr_right fun _ => ?_
  rw [greatestInteger_eq]
  split
  · rename_i hle
    rw [Option.some.injEq]
    split <;> omega
  · rename_i hle
    exact iff_of_false nofun (by omega)

variable {p : Program} {file : FileId}

/-- What is read is an integer of 64 bits other than the least one. -/
theorem integerValue_bounds {e : Expr} {v : ℤ} (h : integerValue p file e = some v) :
    -2 ^ 63 < v ∧ v < 2 ^ 63 := by
  fun_induction integerValue p file e generalizing v with
  | case1 span value =>
    obtain ⟨n, -, hle, rfl⟩ := literalInteger_eq_some_iff.1 h
    split <;> omega
  | case2 span operand ih =>
    obtain ⟨w, hw, rfl⟩ := Option.map_eq_some_iff.1 h
    have hbounds := ih hw
    omega
  | case3 span operand _ ih => exact ih h
  | case5 span target property hmember =>
    obtain rfl := Option.some.inj h
    decide
  | case4 | case6 | case7 => cases h

/-- An integer read without the member for an open origin is read from a literal with signs. -/
theorem exists_quantity_of_integerValue {e : Expr} {v : ℤ} (h : integerValue p file e = some v)
    (hundefined : e.usesUndefined = false) : ∃ q, e.quantity? = some q := by
  fun_induction integerValue p file e generalizing v with
  | case1 span value =>
    obtain ⟨n, hn, -⟩ := literalInteger_eq_some_iff.1 h
    exact ⟨n, hn⟩
  | case2 span operand ih =>
    obtain ⟨w, hw, rfl⟩ := Option.map_eq_some_iff.1 h
    obtain ⟨q, hq⟩ := ih hw hundefined
    exact ⟨-q, by rw [Expr.quantity?, if_pos rfl, hq, Option.map_some]⟩
  | case3 span operand _ ih => exact ih h hundefined
  | case5 span target property hmember => exact absurd hmember.1 (of_decide_eq_false hundefined)
  | case4 | case6 | case7 => cases h

/-- A literal with signs is read when its number is whole and within the bound; the bound itself
and its negative are read as the greatest integer and its negative. -/
theorem integerValue_eq_some_iff {e : Expr} {q : ℚ} (hq : e.quantity? = some q) {v : ℤ} :
    integerValue p file e = some v ↔
      ∃ n : ℤ, q = n ∧ |n| ≤ 2 ^ 63 ∧ v = max (-(2 ^ 63 - 1)) (min n (2 ^ 63 - 1)) := by
  fun_induction integerValue p file e generalizing q v with
  | case1 span value =>
    rw [literalInteger_eq_some_iff]
    constructor
    · rintro ⟨n, hn, hle, rfl⟩
      obtain rfl := Option.some.inj (hq.symm.trans hn)
      refine ⟨n, rfl, by rw [abs_of_nonneg] <;> omega, ?_⟩
      split <;> omega
    · rintro ⟨n, rfl, hle, rfl⟩
      have hnonneg : 0 ≤ n := by exact_mod_cast Binary64.value?_nonneg hq
      obtain ⟨m, rfl⟩ := Int.eq_ofNat_of_zero_le hnonneg
      rw [abs_of_nonneg hnonneg] at hle
      refine ⟨m, hq, by omega, ?_⟩
      split <;> omega
  | case2 span operand ih =>
    rw [Expr.quantity?, if_pos rfl] at hq
    obtain ⟨r, hr, rfl⟩ := Option.map_eq_some_iff.1 hq
    rw [Option.map_eq_some_iff]
    simp only [ih hr]
    constructor
    · rintro ⟨w, ⟨n, rfl, hle, rfl⟩, rfl⟩
      exact ⟨-n, by push_cast; rfl, by rwa [abs_neg], by omega⟩
    · rintro ⟨n, hn, hle, rfl⟩
      refine ⟨_, ⟨-n, ?_, by rwa [abs_neg], rfl⟩, by omega⟩
      rw [← neg_neg r, hn]
      push_cast
      rfl
  | case3 span operand _ ih => exact ih hq
  | case4 span operator operand hminus hplus =>
    rw [Expr.quantity?, if_neg hminus, if_neg hplus] at hq
    cases hq
  | case5 | case6 => cases hq
  | case7 e hnumber hunary hmember =>
    unfold Expr.quantity? at hq
    split at hq
    · exact absurd rfl (hnumber _ _)
    · exact absurd rfl (hunary _ _ _)
    · cases hq

/-- No step of the evaluation leaves the integers of 64 bits: an integer that is read is one of
them, and negating it there is exact.  Read without the member for an open origin it is the number
of a literal with signs, except when that number is two to the power of 63 or its negative; a
literal with signs is read when its number is whole and not beyond these two. -/
theorem integerValue_exact_iff (p : Program) (file : FileId) (e : Expr) :
    (∀ v, integerValue p file e = some v →
      ((Int64.ofInt v).toInt = v ∧ (-Int64.ofInt v).toInt = -v) ∧
      (e.usesUndefined = false →
        ∃ q, e.quantity? = some q ∧ ((v : ℚ) = q ↔ |q| ≠ 2 ^ 63))) ∧
    ∀ q, e.quantity? = some q →
      ((integerValue p file e).isSome ↔ (∃ n : ℤ, q = n) ∧ |q| ≤ 2 ^ 63) := by
  constructor
  · intro v hv
    obtain ⟨hlow, hhigh⟩ := integerValue_bounds hv
    have hself : (Int64.ofInt v).toInt = v := Int64.toInt_ofInt_of_le (by omega) (by omega)
    refine ⟨⟨hself, ?_⟩, fun hundefined => ?_⟩
    · rw [Int64.toInt_neg, hself]
      exact Int.bmod_eq_of_le (by omega) (by omega)
    · obtain ⟨q, hq⟩ := exists_quantity_of_integerValue hv hundefined
      obtain ⟨n, rfl, hle, rfl⟩ := (integerValue_eq_some_iff hq).1 hv
      refine ⟨n, hq, ?_⟩
      have habs : |(n : ℚ)| ≠ 2 ^ 63 ↔ |n| ≠ 2 ^ 63 := by exact_mod_cast Iff.rfl
      rw [habs, Int.cast_inj]
      rw [abs_le] at hle
      rw [Ne, abs_eq (by norm_num)]
      omega
  · intro q hq
    rw [Option.isSome_iff_exists]
    constructor
    · rintro ⟨v, hv⟩
      obtain ⟨n, rfl, hle, -⟩ := (integerValue_eq_some_iff hq).1 hv
      exact ⟨⟨n, rfl⟩, by exact_mod_cast hle⟩
    · rintro ⟨⟨n, rfl⟩, hle⟩
      exact ⟨_, (integerValue_eq_some_iff hq).2 ⟨n, rfl, by exact_mod_cast hle, rfl⟩⟩

/-- The greatest literal below two to the power of 63, behind a minus and a plus. -/
theorem integerValue_exact_iff_signed :
    let p : Program := ⟨⟨"/src"⟩, [], [], []⟩
    let e : Expr := .unary default "-" (.unary default "+" (.number default (.finite (2 ^ 53 - 1) 10)))
    let v : ℤ := -(2 ^ 63 - 2 ^ 10)
    integerValue p 0 e = some v ∧ e.usesUndefined = false ∧
      (-Int64.ofInt v).toInt = -v ∧ ∃ q, e.quantity? = some q ∧ ((v : ℚ) = q ↔ |q| ≠ 2 ^ 63) := by
  intro p e v
  have hvalue : integerValue p 0 e = some v := by decide +kernel
  obtain ⟨⟨-, hnegated⟩, hexact⟩ := (integerValue_exact_iff p 0 e).1 v hvalue
  exact ⟨hvalue, rfl, hnegated, hexact rfl⟩

/-- The literal of two to the power of 63 is read as the greatest integer, which is less. -/
theorem integerValue_saturates :
    let text := "9223372036854775808".toList
    let e := formOf (.leaf .value .number [' '] .start text)
    e.usesUndefined = false ∧ e.quantity? = some (2 ^ 63) ∧
      integerValue ⟨⟨"/src"⟩, [], [], []⟩ 0 e = some (2 ^ 63 - 1) := by
  intro text e
  have hvalue : Number.ofLiteral? text = some (.finite (2 ^ 52) 11) := by decide +kernel
  have hnumber : e = .number e.span (.finite (2 ^ 52) 11) := by
    simp only [e, formOf, Source.leafForm, hvalue, Expr.span]
  rw [hnumber]
  refine ⟨rfl, ?_, by decide +kernel⟩
  rw [Expr.quantity?, Binary64.value?]
  norm_num

end DaoGen
