import Enablement.Proofs.Eval.Steps
import Mathlib.Algebra.MvPolynomial.Eval
import Mathlib.Data.Int.ModEq
import Mathlib.Tactic.Ring

/-!
# Evaluation — arithmetic modulo 2 ^ 32

Sums, differences, products and signs wrap around at 32 bits, and wrapping is
what a residue does not see. So an expression made of these alone
(`Expr.IsArithmetic`) may be reckoned in the integers without bound, and
wrapped around at the end (`Expr.IsArithmetic.eval_eq_ofInt`). In any ring it
has a value (`Expr.valueIn`), and among polynomials this is the polynomial that
it spells (`Expr.polynomial`). Expressions that spell one polynomial have one
value on every document.
-/

namespace Enablement

/-- The integer that a variable has, and 0 if its value is no integer. -/
def Snapshot.integerOf (s : Snapshot) (x : Variable) : Int :=
  match s.get x with
  | .integer n => n.toInt
  | _ => 0

/-- The 32-bit integer congruent to an integer is the one that it wraps around to. -/
theorem toInt_modEq_iff {m : Int32} {z : Int} :
    m.toInt ≡ z [ZMOD 2 ^ 32] ↔ m = Int32.ofInt z := by
  constructor
  · intro h
    have hmod : m.toInt % Int32.size = z % Int32.size := h
    rw [← Int32.toInt_inj, Int32.toInt_ofInt, ← Int.emod_bmod, ← hmod, Int.emod_bmod,
      ← Int32.toInt_ofInt, Int32.ofInt_toInt]
  · rintro rfl
    rw [Int32.toInt_ofInt]
    exact Int.bmod_emod

namespace Expr

/-! ## What arithmetic is, and its value in a ring -/

/-- The expression is made of sums, differences, products and signs, over integers and
variables that are integers. -/
inductive IsArithmetic (s : Snapshot) : Expr → Prop
  /-- An integer, of whatever sign. -/
  | const {n : Int32} : IsArithmetic s (.const (.integer n))
  /-- A variable that is an integer on the document. -/
  | param {name : String} {n : Int32} : s.lookup name = .integer n → IsArithmetic s (.param name)
  /-- An opposite. -/
  | negate {x : Expr} : IsArithmetic s x → IsArithmetic s (.unary .negate x)
  /-- The same once more. -/
  | plus {x : Expr} : IsArithmetic s x → IsArithmetic s (.unary .plus x)
  /-- A sum. -/
  | add {l r : Expr} : IsArithmetic s l → IsArithmetic s r → IsArithmetic s (.binary .add l r)
  /-- A difference. -/
  | subtract {l r : Expr} :
      IsArithmetic s l → IsArithmetic s r → IsArithmetic s (.binary .subtract l r)
  /-- A product. -/
  | multiply {l r : Expr} :
      IsArithmetic s l → IsArithmetic s r → IsArithmetic s (.binary .multiply l r)

/-- **The value of an arithmetic expression in a ring** in which its variables have
values. For other expressions it means nothing. -/
def valueIn {R : Type} [Ring R] (ρ : Variable → R) : Expr → R
  | .const (.integer n) => (n.toInt : R)
  | .param name => (Variable.ofName? name).elim 0 ρ
  | .unary .negate x => -valueIn ρ x
  | .unary .plus x => valueIn ρ x
  | .binary .add l r => valueIn ρ l + valueIn ρ r
  | .binary .subtract l r => valueIn ρ l - valueIn ρ r
  | .binary .multiply l r => valueIn ρ l * valueIn ρ r
  | _ => 0

/-- The polynomial that an arithmetic expression spells, in the variables of a
document. -/
noncomputable def polynomial (e : Expr) : MvPolynomial Variable ℤ := e.valueIn MvPolynomial.X

variable {s : Snapshot} {e : Expr}

/-- A ring homomorphism takes the value in one ring to that in the other. -/
theorem IsArithmetic.map_valueIn {R R' : Type} [Ring R] [Ring R'] (h : e.IsArithmetic s)
    (φ : R →+* R') (ρ : Variable → R) : φ (e.valueIn ρ) = e.valueIn fun x => φ (ρ x) := by
  induction h with
  | const => rw [valueIn, valueIn, map_intCast]
  | @param name =>
    rw [valueIn, valueIn]
    cases Variable.ofName? name with
    | none => exact map_zero φ
    | some x => rfl
  | negate _ ih => rw [valueIn, valueIn, map_neg, ih]
  | plus _ ih => rw [valueIn, valueIn, ih]
  | add _ _ ihl ihr => rw [valueIn, valueIn, map_add, ihl, ihr]
  | subtract _ _ ihl ihr => rw [valueIn, valueIn, map_sub, ihl, ihr]
  | multiply _ _ ihl ihr => rw [valueIn, valueIn, map_mul, ihl, ihr]

/-- And so the polynomial comes in the integers to the value there. -/
theorem IsArithmetic.eval_polynomial (h : e.IsArithmetic s) (ρ : Variable → ℤ) :
    MvPolynomial.eval ρ e.polynomial = e.valueIn ρ := by
  rw [polynomial, h.map_valueIn]
  simp only [MvPolynomial.eval_X]

/-! ## Evaluation wraps around -/

/-- The integer that a name stands for. -/
theorem integerOf_lookup {name : String} {n : Int32} (h : s.lookup name = .integer n) :
    (Variable.ofName? name).elim 0 s.integerOf = n.toInt := by
  rw [Snapshot.lookup] at h
  cases hname : Variable.ofName? name with
  | none =>
    rw [hname] at h
    cases h
  | some x =>
    rw [hname] at h
    have hget : s.get x = .integer n := h
    rw [Option.elim_some, Snapshot.integerOf, hget]

/-- **Evaluation gives the value in the integers, wrapped around at 32 bits.** -/
theorem IsArithmetic.eval_eq_ofInt (h : e.IsArithmetic s) :
    eval s e = .ok (.integer (Int32.ofInt (e.valueIn s.integerOf))) := by
  induction h with
  | @const n =>
    rw [eval_const, valueIn, Int.cast_id, Int32.ofInt_toInt]
  | param hname =>
    rw [eval_param, valueIn, integerOf_lookup hname, Int32.ofInt_toInt, hname]
  | negate _ ih =>
    rw [eval_unary, ih, valueIn, Int32.ofInt_neg]
    rfl
  | plus _ ih =>
    rw [eval_unary, ih, valueIn]
    rfl
  | add _ _ ihl ihr =>
    rw [eval_binary, ihl, ihr, valueIn, Int32.ofInt_add]
    rfl
  | subtract _ _ ihl ihr =>
    rw [eval_binary, ihl, ihr, valueIn, Int32.ofInt_sub]
    rfl
  | multiply _ _ ihl ihr =>
    rw [eval_binary, ihl, ihr, valueIn, Int32.ofInt_mul]
    rfl

/-- **Arithmetic is exact modulo 2 ^ 32.** An arithmetic expression has a value on the
document, and it is the one 32-bit integer congruent to what the expression comes to
in the integers without bound, modulo 2 ^ 32. And so expressions that spell one
polynomial have one value. -/
theorem arithmetic_is_exact_modulo (s : Snapshot) :
    (∀ e, IsArithmetic s e → ∃ n : Int32, eval s e = .ok (.integer n) ∧
        ∀ m : Int32, m.toInt ≡ e.valueIn s.integerOf [ZMOD 2 ^ 32] ↔ m = n) ∧
      ∀ e e', IsArithmetic s e → IsArithmetic s e' → e.polynomial = e'.polynomial →
        eval s e = eval s e' := by
  refine ⟨fun e he => ⟨_, he.eval_eq_ofInt, fun m => toInt_modEq_iff⟩, fun e e' he he' h => ?_⟩
  rw [he.eval_eq_ofInt, he'.eval_eq_ofInt, ← he.eval_polynomial, h, he'.eval_polynomial]

/-- The opposite of the least integer times an odd number has a value all the same, and a
product of a sum and a difference has that of a difference of squares. -/
theorem arithmetic_of_width_is_exact_modulo :
    (∃ n : Int32, eval ⟨641, 480, .rgb, false, 3, 3, false, true⟩
        (.binary .multiply (.unary .negate (.const (.integer (-2147483648))))
          (.param "PSHOP_ImageWidth")) = .ok (.integer n) ∧
        ∀ m : Int32, m.toInt ≡ 2147483648 * 641 [ZMOD 2 ^ 32] ↔ m = n) ∧
      eval ⟨641, 480, .rgb, false, 3, 3, false, true⟩
          (.binary .multiply (.binary .add (.param "PSHOP_ImageWidth") (.const (.integer 70000)))
            (.binary .subtract (.param "pshop_imagewidth") (.const (.integer 70000)))) =
        eval ⟨641, 480, .rgb, false, 3, 3, false, true⟩
          (.binary .subtract
            (.binary .multiply (.param "PSHOP_ImageWidth") (.param "PSHOP_ImageWidth"))
            (.binary .multiply (.const (.integer 70000)) (.const (.integer 70000)))) := by
  obtain ⟨hvalue, hpolynomial⟩ :=
    arithmetic_is_exact_modulo ⟨641, 480, .rgb, false, 3, 3, false, true⟩
  refine ⟨hvalue _ (.multiply (.negate .const) (.param (n := 641) rfl)), ?_⟩
  refine hpolynomial _ _ (.multiply (.add (.param (n := 641) rfl) .const)
    (.subtract (.param (n := 641) rfl) .const)) (.subtract (.multiply (.param (n := 641) rfl)
    (.param (n := 641) rfl)) (.multiply .const .const)) ?_
  have hwidth : Variable.ofName? "PSHOP_ImageWidth" = some .imageWidth := by decide +kernel
  have hlower : Variable.ofName? "pshop_imagewidth" = some .imageWidth := by decide +kernel
  simp only [polynomial, valueIn, hwidth, hlower, Option.elim_some]
  ring

end Expr
end Enablement
