import Rakro.Internal.Int24
import Mathlib.Data.Nat.Bitwise

/-!
# Arithmetic on 24 bits

The expressions that the operators of `uint24_t` make of numbers, and what they would be in the
integers modulo `2 ^ 24`. The constructor and the plain operators do not mask, so an expression is
what it should be as long as no operation leaves the 24 bits: a sum that is too large, a difference
below zero, a product with a bit of 24 to 31 set, and every complement do.
-/

namespace Rakro

namespace UInt24

/-! ## Expressions -/

/-- The operators that have a compound assignment between two objects. -/
inductive Operator
  | add | sub | mul | div | mod | and | or | xor
  deriving DecidableEq, Repr

namespace Operator

/-- `a op b`. -/
def run : Operator → UInt24 → UInt24 → Option UInt24
  | add, a, b => some (a.add b)
  | sub, a, b => some (a.sub b)
  | mul, a, b => some (a.mul b)
  | div, a, b => a.div b
  | mod, a, b => a.mod b
  | and, a, b => some (a.and b)
  | or, a, b => some (a.or b)
  | xor, a, b => some (a.xor b)

/-- `a op= b`. -/
def runAssign : Operator → UInt24 → UInt24 → Option UInt24
  | add, a, b => some (a.addAssign b)
  | sub, a, b => some (a.subAssign b)
  | mul, a, b => some (a.mulAssign b)
  | div, a, b => a.divAssign b
  | mod, a, b => a.modAssign b
  | and, a, b => some (a.andAssign b)
  | or, a, b => some (a.orAssign b)
  | xor, a, b => some (a.xorAssign b)

/-- The operation on integers, modulo `2 ^ 24`. -/
def onNumbers : Operator → Nat → Nat → Nat
  | add, m, n => (m + n) % 2 ^ 24
  | sub, m, n => (((m : Int) - n) % 2 ^ 24).toNat
  | mul, m, n => m * n % 2 ^ 24
  | div, m, n => m / n % 2 ^ 24
  | mod, m, n => m % n % 2 ^ 24
  | and, m, n => (m &&& n) % 2 ^ 24
  | or, m, n => (m ||| n) % 2 ^ 24
  | xor, m, n => (m ^^^ n) % 2 ^ 24

/-- The operation stays inside the 24 bits. -/
def Fits : Operator → Nat → Nat → Prop
  | add, m, n => m + n < 2 ^ 24
  | sub, m, n => n ≤ m
  | mul, m, n => m * n % 2 ^ 32 < 2 ^ 24
  | _, _, _ => True

instance : (op : Operator) → (m n : Nat) → Decidable (op.Fits m n)
  | add, m, n => inferInstanceAs (Decidable (m + n < 2 ^ 24))
  | sub, m, n => inferInstanceAs (Decidable (n ≤ m))
  | mul, m, n => inferInstanceAs (Decidable (m * n % 2 ^ 32 < 2 ^ 24))
  | div, _, _ | mod, _, _ | and, _, _ | or, _, _ | xor, _, _ => inferInstanceAs (Decidable True)

end Operator

/-- An expression of type `uint24_t` over numbers of type `uint32_t`. Shifts are below 24. -/
inductive Expr
  /-- The constructor. -/
  | ofUInt32 (v : UInt32)
  | binary (op : Operator) (left right : Expr)
  | assign (op : Operator) (left right : Expr)
  | complement (operand : Expr)
  | shiftLeft (operand : Expr) (shift : Fin 24)
  | shiftRight (operand : Expr) (shift : Fin 24)
  | shiftLeftAssign (operand : Expr) (shift : Fin 24)
  | shiftRightAssign (operand : Expr) (shift : Fin 24)
  | preIncr (operand : Expr)
  | preDecr (operand : Expr)
  | postIncr (operand : Expr)
  | postDecr (operand : Expr)
  /-- The object behind `set_value(v)`. -/
  | setValue (operand : Expr) (v : UInt32)
  | copyValue (operand v : Expr)
  deriving DecidableEq, Repr

namespace Expr

/-- What the expression is, unless it divides by zero. -/
def eval : Expr → Option UInt24
  | ofUInt32 v => some ⟨v⟩
  | binary op left right => do op.run (← left.eval) (← right.eval)
  | assign op left right => do op.runAssign (← left.eval) (← right.eval)
  | complement operand => return (← operand.eval).complement
  | shiftLeft operand shift => return (← operand.eval).shiftLeft shift.val
  | shiftRight operand shift => return (← operand.eval).shiftRight shift.val
  | shiftLeftAssign operand shift => return (← operand.eval).shiftLeftAssign shift.val
  | shiftRightAssign operand shift => return (← operand.eval).shiftRightAssign shift.val
  | preIncr operand => return (← operand.eval).incr
  | preDecr operand => return (← operand.eval).decr
  | postIncr operand => return (← operand.eval).postIncr.1
  | postDecr operand => return (← operand.eval).postDecr.1
  | setValue operand v => return (← operand.eval).setValue v
  | copyValue operand v => return (← operand.eval).copyValue (← v.eval)

/-- What the expression is in the integers modulo `2 ^ 24`. -/
def number : Expr → Nat
  | ofUInt32 v => v.toNat % 2 ^ 24
  | binary op left right | assign op left right => op.onNumbers left.number right.number
  | complement operand => ((-(operand.number : Int) - 1) % 2 ^ 24).toNat
  | shiftLeft operand shift | shiftLeftAssign operand shift =>
    operand.number * 2 ^ shift.val % 2 ^ 24
  | shiftRight operand shift | shiftRightAssign operand shift =>
    operand.number / 2 ^ shift.val % 2 ^ 24
  | preIncr operand => (operand.number + 1) % 2 ^ 24
  | preDecr operand => (((operand.number : Int) - 1) % 2 ^ 24).toNat
  | postIncr operand | postDecr operand => operand.number
  | setValue _ v => v.toNat % 2 ^ 24
  | copyValue _ v => v.number

/-- No operation leaves the 24 bits. -/
def InRange : Expr → Prop
  | ofUInt32 v => v.toNat < 2 ^ 24
  | binary op left right => left.InRange ∧ right.InRange ∧ op.Fits left.number right.number
  | assign _ left right => left.InRange ∧ right.InRange
  | complement _ => False
  | shiftLeft operand _ | shiftRight operand _ | shiftLeftAssign operand _
  | shiftRightAssign operand _ | preIncr operand | preDecr operand | postIncr operand
  | postDecr operand | setValue operand _ => operand.InRange
  | copyValue operand v => operand.InRange ∧ v.InRange

instance decidableInRange : (e : Expr) → Decidable e.InRange
  | ofUInt32 v => inferInstanceAs (Decidable (v.toNat < 2 ^ 24))
  | binary op left right =>
    @instDecidableAnd _ _ (decidableInRange left) (@instDecidableAnd _ _ (decidableInRange right)
      (inferInstanceAs (Decidable (op.Fits left.number right.number))))
  | assign _ left right =>
    @instDecidableAnd _ _ (decidableInRange left) (decidableInRange right)
  | complement _ => inferInstanceAs (Decidable False)
  | shiftLeft operand _ | shiftRight operand _ | shiftLeftAssign operand _
  | shiftRightAssign operand _ | preIncr operand | preDecr operand | postIncr operand
  | postDecr operand | setValue operand _ => decidableInRange operand
  | copyValue operand v => @instDecidableAnd _ _ (decidableInRange operand) (decidableInRange v)

/-- The expression and all that it is made of. -/
def parts : Expr → List Expr
  | ofUInt32 v => [ofUInt32 v]
  | binary op left right => binary op left right :: (left.parts ++ right.parts)
  | assign op left right => assign op left right :: (left.parts ++ right.parts)
  | complement operand => complement operand :: operand.parts
  | shiftLeft operand shift => shiftLeft operand shift :: operand.parts
  | shiftRight operand shift => shiftRight operand shift :: operand.parts
  | shiftLeftAssign operand shift => shiftLeftAssign operand shift :: operand.parts
  | shiftRightAssign operand shift => shiftRightAssign operand shift :: operand.parts
  | preIncr operand => preIncr operand :: operand.parts
  | preDecr operand => preDecr operand :: operand.parts
  | postIncr operand => postIncr operand :: operand.parts
  | postDecr operand => postDecr operand :: operand.parts
  | setValue operand v => setValue operand v :: operand.parts
  | copyValue operand v => copyValue operand v :: (operand.parts ++ v.parts)

/-- An expression is a part of itself. -/
theorem self_mem_parts (e : Expr) : e ∈ e.parts := by
  cases e <;> exact List.mem_cons_self

/-- Every part of the expression is the number that it should be. -/
def Exact (e : Expr) : Prop := ∀ p ∈ e.parts, ∀ a, p.eval = some a → a.toNat = p.number

end Expr

/-! ## One operation -/

/-- Masking keeps what is canonical. -/
theorem and_mask_of_canonical {v : UInt32} (h : Canonical ⟨v⟩) : (⟨v &&& mask⟩ : UInt24) = ⟨v⟩ := by
  apply toNat_inj.mp
  show (v &&& mask).toNat = v.toNat
  rw [toNat_and_mask]
  exact Nat.mod_eq_of_lt h

theorem toNat_setValue (a : UInt24) (v : UInt32) : (a.setValue v).toNat = v.toNat % 2 ^ 24 :=
  toNat_and_mask v

/-- The predecessor of a canonical word wraps at 24 bits. -/
theorem toNat_decr {a : UInt24} (h : a.Canonical) :
    a.decr.toNat = (((a.toNat : Int) - 1) % 2 ^ 24).toNat := by
  have hlt : a.value.toNat < 2 ^ 24 := h
  show ((a.value - 1) &&& mask).toNat = (((a.value.toNat : Int) - 1) % 2 ^ 24).toNat
  rw [toNat_and_mask, UInt32.toNat_sub]
  show (2 ^ 32 - 1 + a.value.toNat) % 2 ^ 32 % 2 ^ 24 = _
  omega

/-- The complement of 24 bits has bits above them. -/
theorem toNat_complement_ge {a : UInt24} (h : a.Canonical) : 2 ^ 24 ≤ a.complement.toNat := by
  have hlt : a.value.toNat < 2 ^ 24 := h
  show 2 ^ 24 ≤ (~~~a.value).toNat
  rw [UInt32.toNat_not]
  simp only [UInt32.size]
  omega

/-- A shift below 24 is the count that the word is shifted by. -/
theorem toNat_shift (shift : Fin 24) : (UInt32.ofNat shift.val).toNat % 32 = shift.val := by
  rw [UInt32.toNat_ofNat']
  omega

/-- A left shift keeps the low 24 bits. -/
theorem toNat_shiftLeft (a : UInt24) (shift : Fin 24) :
    (a.shiftLeft shift.val).toNat = a.toNat * 2 ^ shift.val % 2 ^ 24 := by
  show ((a.value <<< UInt32.ofNat shift.val) &&& mask).toNat = _
  rw [toNat_and_mask, UInt32.toNat_shiftLeft, toNat_shift, Nat.shiftLeft_eq]
  exact Nat.mod_mod_of_dvd _ (Nat.pow_dvd_pow 2 (by decide))

/-- A right shift of a canonical word divides. -/
theorem toNat_shiftRight {a : UInt24} (h : a.Canonical) (shift : Fin 24) :
    (a.shiftRight shift.val).toNat = a.toNat / 2 ^ shift.val % 2 ^ 24 := by
  have hle : a.toNat / 2 ^ shift.val ≤ a.toNat := Nat.div_le_self _ _
  show (a.value >>> UInt32.ofNat shift.val).toNat = _
  rw [UInt32.toNat_shiftRight, toNat_shift, Nat.shiftRight_eq_div_pow]
  exact (Nat.mod_eq_of_lt (Nat.lt_of_le_of_lt hle h)).symm

namespace Operator

variable {op : Operator} {a b r : UInt24}

/-- The exact result is a number of 24 bits. -/
theorem onNumbers_lt (op : Operator) (m n : Nat) : op.onNumbers m n < 2 ^ 24 := by
  cases op with
  | sub =>
    show (((m : Int) - n) % 2 ^ 24).toNat < 2 ^ 24
    omega
  | _ => exact Nat.mod_lt _ (by decide)

/-- On 24 bits, an operator yields the number exactly when the operation stays inside of them. -/
theorem toNat_run_iff (ha : a.Canonical) (hb : b.Canonical) (hrun : op.run a b = some r) :
    r.toNat = op.onNumbers a.toNat b.toNat ↔ op.Fits a.toNat b.toNat := by
  have hlta : a.value.toNat < 2 ^ 24 := ha
  have hltb : b.value.toNat < 2 ^ 24 := hb
  cases op with
  | add =>
    cases hrun
    show (a.value + b.value).toNat = (a.value.toNat + b.value.toNat) % 2 ^ 24 ↔
      a.value.toNat + b.value.toNat < 2 ^ 24
    rw [UInt32.toNat_add]
    omega
  | sub =>
    cases hrun
    show (a.value - b.value).toNat = (((a.value.toNat : Int) - b.value.toNat) % 2 ^ 24).toNat ↔
      b.value.toNat ≤ a.value.toNat
    rw [UInt32.toNat_sub]
    omega
  | mul =>
    cases hrun
    show (a.value * b.value).toNat = a.value.toNat * b.value.toNat % 2 ^ 24 ↔
      a.value.toNat * b.value.toNat % 2 ^ 32 < 2 ^ 24
    rw [UInt32.toNat_mul]
    omega
  | div =>
    obtain ⟨-, hr⟩ := Option.ite_none_left_eq_some.mp hrun
    cases hr
    refine iff_of_true ?_ trivial
    show (a.value / b.value).toNat = a.value.toNat / b.value.toNat % 2 ^ 24
    rw [UInt32.toNat_div]
    exact (Nat.mod_eq_of_lt (Nat.lt_of_le_of_lt (Nat.div_le_self _ _) hlta)).symm
  | mod =>
    obtain ⟨-, hr⟩ := Option.ite_none_left_eq_some.mp hrun
    cases hr
    refine iff_of_true ?_ trivial
    show (a.value % b.value).toNat = a.value.toNat % b.value.toNat % 2 ^ 24
    rw [UInt32.toNat_mod]
    exact (Nat.mod_eq_of_lt (Nat.lt_of_le_of_lt (Nat.mod_le _ _) hlta)).symm
  | and =>
    cases hrun
    refine iff_of_true ?_ trivial
    show (a.value &&& b.value).toNat = (a.value.toNat &&& b.value.toNat) % 2 ^ 24
    rw [UInt32.toNat_and]
    exact (Nat.mod_eq_of_lt (Nat.and_lt_two_pow _ hltb)).symm
  | or =>
    cases hrun
    refine iff_of_true ?_ trivial
    show (a.value ||| b.value).toNat = (a.value.toNat ||| b.value.toNat) % 2 ^ 24
    rw [UInt32.toNat_or]
    exact (Nat.mod_eq_of_lt (Nat.or_lt_two_pow hlta hltb)).symm
  | xor =>
    cases hrun
    refine iff_of_true ?_ trivial
    show (a.value ^^^ b.value).toNat = (a.value.toNat ^^^ b.value.toNat) % 2 ^ 24
    rw [UInt32.toNat_xor]
    exact (Nat.mod_eq_of_lt (Nat.xor_lt_two_pow hlta hltb)).symm

/-- A compound assignment masks what the operator yields, or yields 24 bits anyway. -/
theorem runAssign_of_canonical (hrun : op.run a b = some r) (hr : r.Canonical) :
    op.runAssign a b = some r := by
  cases op with
  | div | mod =>
    obtain ⟨hne, hsome⟩ := Option.ite_none_left_eq_some.mp hrun
    cases hsome
    exact Option.ite_none_left_eq_some.mpr ⟨hne, congrArg some (and_mask_of_canonical hr)⟩
  | _ =>
    cases hrun
    first
      | rfl
      | exact congrArg some (and_mask_of_canonical hr)

/-- Where the assignment is defined, so is the operator. -/
theorem exists_run (hrun : op.runAssign a b = some r) : ∃ r', op.run a b = some r' := by
  cases op with
  | div | mod =>
    obtain ⟨hne, -⟩ := Option.ite_none_left_eq_some.mp hrun
    exact ⟨_, if_neg hne⟩
  | _ => exact ⟨_, rfl⟩

/-- A compound assignment always yields the number. -/
theorem toNat_runAssign (ha : a.Canonical) (hb : b.Canonical) (hrun : op.runAssign a b = some r) :
    r.toNat = op.onNumbers a.toNat b.toNat := by
  have hlta : a.value.toNat < 2 ^ 24 := ha
  have hltb : b.value.toNat < 2 ^ 24 := hb
  obtain ⟨r', hr'⟩ := exists_run hrun
  cases op with
  | add =>
    cases hrun
    show ((a.value + b.value) &&& mask).toNat = (a.value.toNat + b.value.toNat) % 2 ^ 24
    rw [toNat_and_mask, UInt32.toNat_add]
    omega
  | sub =>
    cases hrun
    show ((a.value - b.value) &&& mask).toNat
      = (((a.value.toNat : Int) - b.value.toNat) % 2 ^ 24).toNat
    rw [toNat_and_mask, UInt32.toNat_sub]
    omega
  | mul =>
    cases hrun
    show ((a.value * b.value) &&& mask).toNat = a.value.toNat * b.value.toNat % 2 ^ 24
    rw [toNat_and_mask, UInt32.toNat_mul]
    exact Nat.mod_mod_of_dvd _ (Nat.pow_dvd_pow 2 (by decide))
  -- the other operators stay inside the 24 bits by themselves
  | div | mod | and | or | xor =>
    have hnumber := (toNat_run_iff ha hb hr').mpr trivial
    have hcanonical : r'.Canonical := hnumber.trans_lt (onNumbers_lt _ _ _)
    rw [runAssign_of_canonical hr' hcanonical] at hrun
    cases hrun
    exact hnumber

end Operator

/-! ## Whole expressions -/

namespace Expr

variable {e : Expr}

/-- The exact value of an expression is a number of 24 bits. -/
theorem number_lt : ∀ e : Expr, e.number < 2 ^ 24
  | ofUInt32 v | setValue _ v => Nat.mod_lt _ (by decide)
  | binary op left right | assign op left right => op.onNumbers_lt _ _
  | complement operand => by
    show ((-(operand.number : Int) - 1) % 2 ^ 24).toNat < 2 ^ 24
    omega
  | shiftLeft _ _ | shiftLeftAssign _ _ | shiftRight _ _ | shiftRightAssign _ _ | preIncr _ =>
    Nat.mod_lt _ (by decide)
  | preDecr operand => by
    show (((operand.number : Int) - 1) % 2 ^ 24).toNat < 2 ^ 24
    omega
  | postIncr operand | postDecr operand => number_lt operand
  | copyValue _ v => number_lt v

/-- An exact expression is canonical. -/
theorem Exact.canonical (h : e.Exact) {a : UInt24} (ha : e.eval = some a) : a.Canonical :=
  (h e e.self_mem_parts a ha).trans_lt e.number_lt

/-- An operator on one operand that is exact on 24 bits. -/
theorem exact_iff_of_unary {operand : Expr} {f : UInt24 → UInt24} (hdefined : e.eval ≠ none)
    (hparts : e.parts = e :: operand.parts)
    (heval : e.eval = operand.eval.bind fun a => some (f a))
    (hf : ∀ a : UInt24, a.Canonical → a.toNat = operand.number → (f a).toNat = e.number) :
    e.Exact ↔ operand.Exact := by
  constructor
  · intro h p hp
    exact h p (hparts ▸ List.mem_cons_of_mem e hp)
  · intro h p hp r hr
    rw [hparts] at hp
    rcases List.mem_cons.mp hp with rfl | hp
    · obtain ⟨a, ha, hfa⟩ := Option.bind_eq_some_iff.mp (heval.symm.trans hr)
      cases hfa
      exact hf a (h.canonical ha) (h _ operand.self_mem_parts a ha)
    · exact h p hp r hr

/-- An operator on two operands that is exact on 24 bits on the condition `c`. -/
theorem exact_iff_of_binary {left right : Expr} {f : UInt24 → UInt24 → Option UInt24} {c : Prop}
    (hdefined : e.eval ≠ none) (hparts : e.parts = e :: (left.parts ++ right.parts))
    (heval : e.eval = left.eval.bind fun a => right.eval.bind fun b => f a b)
    (hf : ∀ a b r : UInt24, a.Canonical → b.Canonical → a.toNat = left.number →
      b.toNat = right.number → f a b = some r → (r.toNat = e.number ↔ c)) :
    e.Exact ↔ left.Exact ∧ right.Exact ∧ c := by
  obtain ⟨r, hr⟩ := Option.ne_none_iff_exists'.mp hdefined
  obtain ⟨a, ha, hright⟩ := Option.bind_eq_some_iff.mp (heval.symm.trans hr)
  obtain ⟨b, hb, hrun⟩ := Option.bind_eq_some_iff.mp hright
  have hroot (hleft : left.Exact) (hright : right.Exact) : r.toNat = e.number ↔ c :=
    hf a b r (hleft.canonical ha) (hright.canonical hb) (hleft _ left.self_mem_parts a ha)
      (hright _ right.self_mem_parts b hb) hrun
  constructor
  · intro h
    have hl : left.Exact := fun p hp =>
      h p (hparts ▸ List.mem_cons_of_mem e (List.mem_append_left _ hp))
    have hr' : right.Exact := fun p hp =>
      h p (hparts ▸ List.mem_cons_of_mem e (List.mem_append_right _ hp))
    exact ⟨hl, hr', (hroot hl hr').mp (h e e.self_mem_parts r hr)⟩
  · rintro ⟨hl, hr', hc⟩ p hp x hx
    rw [hparts] at hp
    rcases List.mem_cons.mp hp with rfl | hp
    · rw [hr] at hx
      cases hx
      exact (hroot hl hr').mpr hc
    · rcases List.mem_append.mp hp with hp | hp
      · exact hl p hp x hx
      · exact hr' p hp x hx

/-- A complement never is exact. -/
theorem not_exact_complement {operand : Expr} (hdefined : (complement operand).eval ≠ none) :
    ¬ (complement operand).Exact := by
  intro h
  obtain ⟨r, hr⟩ := Option.ne_none_iff_exists'.mp hdefined
  obtain ⟨a, ha, hfa⟩ := Option.bind_eq_some_iff.mp hr
  have hoperand : operand.Exact := fun p hp => h p (List.mem_cons_of_mem _ hp)
  have hge := toNat_complement_ge (hoperand.canonical ha)
  cases hfa
  have hlt : a.complement.toNat < 2 ^ 24 := h.canonical hr
  omega

/-- The operand of a defined expression is defined. -/
theorem defined_of_unary {operand : Expr} {f : UInt24 → UInt24} (hdefined : e.eval ≠ none)
    (heval : e.eval = operand.eval.bind fun a => some (f a)) : operand.eval ≠ none := by
  intro h
  rw [heval, h] at hdefined
  exact hdefined rfl

/-- Both operands of a defined expression are defined. -/
theorem defined_of_binary (left right : Expr) {f : UInt24 → UInt24 → Option UInt24}
    (hdefined : e.eval ≠ none)
    (heval : e.eval = left.eval.bind fun a => right.eval.bind fun b => f a b) :
    left.eval ≠ none ∧ right.eval ≠ none := by
  obtain ⟨r, hr⟩ := Option.ne_none_iff_exists'.mp hdefined
  obtain ⟨a, ha, hright⟩ := Option.bind_eq_some_iff.mp (heval.symm.trans hr)
  obtain ⟨b, hb, -⟩ := Option.bind_eq_some_iff.mp hright
  rw [ha, hb]
  exact ⟨Option.some_ne_none a, Option.some_ne_none b⟩

/-- A defined expression has its exact value when it stays in range, and only then. -/
theorem exact_iff_inRange (e : Expr) (hdefined : e.eval ≠ none) : e.Exact ↔ e.InRange := by
  induction e with
  | ofUInt32 v =>
    have hsingle : (ofUInt32 v).Exact ↔ v.toNat = v.toNat % 2 ^ 24 := by
      constructor
      · intro h
        exact h _ List.mem_cons_self ⟨v⟩ rfl
      · intro h p hp a ha
        obtain rfl := List.mem_singleton.mp hp
        cases ha
        exact h
    rw [hsingle]
    show _ ↔ v.toNat < 2 ^ 24
    omega
  | binary op left right ihl ihr =>
    obtain ⟨hl, hr⟩ := defined_of_binary left right hdefined rfl
    rw [exact_iff_of_binary (c := op.Fits left.number right.number) hdefined rfl rfl ?_, ihl hl,
      ihr hr]
    · rfl
    · intro a b r ha hb hna hnb hrun
      rw [← hna, ← hnb]
      have h := Operator.toNat_run_iff ha hb hrun
      rwa [hna, hnb] at h ⊢
  | assign op left right ihl ihr =>
    obtain ⟨hl, hr⟩ := defined_of_binary left right hdefined rfl
    rw [exact_iff_of_binary (c := True) hdefined rfl rfl ?_, ihl hl, ihr hr, and_true]
    · rfl
    · intro a b r ha hb hna hnb hrun
      have h := Operator.toNat_runAssign ha hb hrun
      rw [hna, hnb] at h
      exact iff_of_true h trivial
  | complement operand _ => exact iff_of_false (not_exact_complement hdefined) id
  | shiftLeft operand shift ih | shiftLeftAssign operand shift ih =>
    rw [exact_iff_of_unary (f := (·.shiftLeft shift.val)) hdefined rfl rfl ?_,
      ih (defined_of_unary hdefined rfl)]
    · rfl
    · intro a _ hnumber
      rw [toNat_shiftLeft, hnumber]
      rfl
  | shiftRight operand shift ih | shiftRightAssign operand shift ih =>
    rw [exact_iff_of_unary (f := (·.shiftRight shift.val)) hdefined rfl rfl ?_,
      ih (defined_of_unary hdefined rfl)]
    · rfl
    · intro a ha hnumber
      rw [toNat_shiftRight ha, hnumber]
      rfl
  | preIncr operand ih =>
    rw [exact_iff_of_unary hdefined rfl rfl ?_, ih (defined_of_unary hdefined rfl)]
    · rfl
    · intro a _ hnumber
      rw [toNat_incr, hnumber]
      rfl
  | preDecr operand ih =>
    rw [exact_iff_of_unary hdefined rfl rfl ?_, ih (defined_of_unary hdefined rfl)]
    · rfl
    · intro a ha hnumber
      rw [toNat_decr ha, hnumber]
      rfl
  | postIncr operand ih | postDecr operand ih =>
    rw [exact_iff_of_unary hdefined rfl rfl ?_, ih (defined_of_unary hdefined rfl)]
    · rfl
    · intro a _ hnumber
      exact hnumber
  | setValue operand v ih =>
    rw [exact_iff_of_unary hdefined rfl rfl ?_, ih (defined_of_unary hdefined rfl)]
    · rfl
    · intro a _ _
      exact toNat_setValue a v
  | copyValue operand v ihl ihr =>
    obtain ⟨hl, hr⟩ := defined_of_binary operand v hdefined rfl
    rw [exact_iff_of_binary (c := True) hdefined rfl rfl ?_, ihl hl, ihr hr, and_true]
    · rfl
    · intro a b r _ _ _ hnb hrun
      cases hrun
      exact iff_of_true hnb trivial

end Expr

/-! ## The whole property -/

/-- The expressions and all that they are made of. -/
def partsAll (es : List Expr) : List Expr := es.flatMap Expr.parts

/--
In the expressions `es`, everything is the number below `2 ^ 24` that it should be, each operator
agrees with its compound assignment, and what compares equal has the same value and hash.
-/
structure CanonicalAll (es : List Expr) : Prop where
  exact : ∀ e ∈ partsAll es, ∀ a, e.eval = some a →
    a.getValue.toNat < 2 ^ 24 ∧ a.getValue.toNat = e.number
  agrees : ∀ op left right, .binary op left right ∈ partsAll es →
    (Expr.binary op left right).eval = (Expr.assign op left right).eval
  agrees_shiftLeft : ∀ operand shift, .shiftLeft operand shift ∈ partsAll es →
    (Expr.shiftLeft operand shift).eval = (Expr.shiftLeftAssign operand shift).eval
  agrees_shiftRight : ∀ operand shift, .shiftRight operand shift ∈ partsAll es →
    (Expr.shiftRight operand shift).eval = (Expr.shiftRightAssign operand shift).eval
  eqv_iff : ∀ e ∈ partsAll es, ∀ e' ∈ partsAll es, ∀ a b, e.eval = some a → e'.eval = some b →
    (a.eqv b ↔ a.getValue = b.getValue)
  hash_eq : ∀ e ∈ partsAll es, ∀ e' ∈ partsAll es, ∀ a b, e.eval = some a → e'.eval = some b →
    a.eqv b → ∀ hashUInt32, a.hash hashUInt32 = b.hash hashUInt32

/-- Canonical words are equal when their values are. -/
theorem eqv_iff_of_canonical {a b : UInt24} (ha : a.Canonical) (hb : b.Canonical) :
    a.eqv b ↔ a.getValue = b.getValue := by
  rw [eqv_iff, Nat.mod_eq_of_lt ha, Nat.mod_eq_of_lt hb]
  exact UInt32.toNat_inj

/-- An operator that is exact agrees with its compound assignment. -/
theorem eval_assign {op : Operator} {left right : Expr}
    (h : ∀ r, (Expr.binary op left right).eval = some r → r.Canonical) :
    (Expr.binary op left right).eval = (Expr.assign op left right).eval := by
  have heval : (Expr.binary op left right).eval =
    left.eval.bind fun a => right.eval.bind fun b => op.run a b := rfl
  have hassign : (Expr.assign op left right).eval =
    left.eval.bind fun a => right.eval.bind fun b => op.runAssign a b := rfl
  rw [heval] at h ⊢
  rw [hassign]
  cases ha : left.eval with
  | none => rfl
  | some a =>
    cases hb : right.eval with
    | none => rfl
    | some b =>
      rw [ha, hb] at h
      show op.run a b = op.runAssign a b
      cases hrun : op.run a b with
      | some r => exact (Operator.runAssign_of_canonical hrun (h r hrun)).symm
      | none =>
        cases hrunAssign : op.runAssign a b with
        | none => rfl
        | some r =>
          obtain ⟨r', hr'⟩ := Operator.exists_run hrunAssign
          rw [hrun] at hr'
          cases hr'

/--
**The arithmetic on 24 bits is what it should be exactly when no operation leaves the 24 bits.**

The constructor and the plain operators do not mask; what is once above the 24 bits shows in the
value and in the hash, but not in the comparisons.
-/
theorem canonicalAll_iff {es : List Expr} (hdefined : ∀ e ∈ es, e.eval ≠ none) :
    CanonicalAll es ↔ ∀ e ∈ es, e.InRange := by
  constructor
  · intro h e he
    refine (e.exact_iff_inRange (hdefined e he)).mp fun p hp a ha => ?_
    exact (h.exact p (List.mem_flatMap.mpr ⟨e, he, hp⟩) a ha).2
  · intro h
    have hexact (p : Expr) (hp : p ∈ partsAll es) (a : UInt24) (ha : p.eval = some a) :
        a.toNat = p.number := by
      obtain ⟨e, he, hpart⟩ := List.mem_flatMap.mp hp
      exact (e.exact_iff_inRange (hdefined e he)).mpr (h e he) p hpart a ha
    have hcanonical (p : Expr) (hp : p ∈ partsAll es) (a : UInt24) (ha : p.eval = some a) :
        a.Canonical := (hexact p hp a ha).trans_lt p.number_lt
    have heqv (p p' : Expr) (hp : p ∈ partsAll es) (hp' : p' ∈ partsAll es) (a b : UInt24)
        (ha : p.eval = some a) (hb : p'.eval = some b) : a.eqv b ↔ a.getValue = b.getValue :=
      eqv_iff_of_canonical (hcanonical p hp a ha) (hcanonical p' hp' b hb)
    refine ⟨fun p hp a ha => ⟨hcanonical p hp a ha, hexact p hp a ha⟩, fun op left right hp => ?_,
      fun _ _ _ => rfl, fun _ _ _ => rfl, fun p hp p' hp' a b => heqv p p' hp hp' a b,
      fun p hp p' hp' a b ha hb hequal hashUInt32 => ?_⟩
    · exact eval_assign (hcanonical _ hp)
    · exact congrArg hashUInt32 ((heqv p p' hp hp' a b ha hb).mp hequal)

/-- `(5 - 3) << 23`, whose bit falls out, and a sum of small numbers. -/
theorem canonicalAll_small :
    CanonicalAll [.shiftLeft (.binary .sub (.ofUInt32 5) (.ofUInt32 3)) 23,
      .binary .add (.ofUInt32 7) (.ofUInt32 8)] :=
  (canonicalAll_iff (by decide)).mpr (by decide)

/-- The largest number and one make `2 ^ 24`, which is equal to zero but has another value. -/
theorem not_canonicalAll_wrap :
    ¬ CanonicalAll [.binary .add (.ofUInt32 0xFFFFFF) (.ofUInt32 1)] := by
  intro h
  have hexact := h.exact _ List.mem_cons_self ⟨0x1000000⟩ rfl
  exact absurd hexact.1 (by decide)

end UInt24

end Rakro
