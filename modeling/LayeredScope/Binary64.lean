/-!
# Binary floating-point numbers of 64 bits

A number is its bit pattern: one sign bit, eleven exponent bits, fifty-two fraction bits.

* `Binary64.classOf` — not a number, an infinity, or finite with `significand · 2 ^ exponent` as
  its magnitude.
* `Binary64.same` — numeric equality: the two zeros are equal, and not-a-number equals nothing,
  not even itself (`same_self`). It is symmetric and transitive (`same_symm`, `same_trans`).

No arithmetic is needed here, so none is defined.
-/

namespace LayeredScope

/-- A bit pattern read as a floating-point number. -/
structure Binary64 where
  bits : UInt64
  deriving DecidableEq, Repr, Inhabited

namespace Binary64

def negative (x : Binary64) : Bool := x.bits >>> 63 == 1

/-- The eleven exponent bits. -/
def exponentField (x : Binary64) : Nat := ((x.bits >>> 52) &&& 0x7ff).toNat

/-- The fifty-two fraction bits. -/
def fraction (x : Binary64) : Nat := (x.bits &&& 0xfffffffffffff).toNat

def isNaN (x : Binary64) : Bool := x.exponentField == 0x7ff && x.fraction != 0

/-- Either zero: every bit but the sign is clear. -/
def isZero (x : Binary64) : Bool := x.bits &&& 0x7fffffffffffffff == 0

/-- Numeric equality. -/
def same (x y : Binary64) : Bool :=
  !x.isNaN && !y.isNaN && (x.bits == y.bits || (x.isZero && y.isZero))

/-- The kinds of number. -/
inductive Class where
  | notANumber
  | infinite
  /-- The magnitude is `significand * 2 ^ exponent`. -/
  | finite (significand : Nat) (exponent : Int)
  deriving DecidableEq, Repr

/-- What the bits below the sign say. -/
def classOf (x : Binary64) : Class :=
  if x.exponentField = 0x7ff then
    if x.fraction = 0 then .infinite else .notANumber
  else if x.exponentField = 0 then .finite x.fraction (-1074)
  else .finite (x.fraction + Nat.pow 2 52) (x.exponentField - 1075)

/-! ## Numeric equality -/

/-- A number equals itself unless it is not a number. -/
theorem same_self (x : Binary64) : x.same x = !x.isNaN := by
  cases h : x.isNaN <;> simp [same, h]

theorem same_symm {x y : Binary64} (h : x.same y = true) : y.same x = true := by
  simp only [same, Bool.and_eq_true, Bool.or_eq_true, beq_iff_eq] at h ⊢
  obtain ⟨⟨hx, hy⟩, h⟩ := h
  exact ⟨⟨hy, hx⟩, h.imp Eq.symm And.symm⟩

theorem same_trans {x y z : Binary64} (h : x.same y = true) (h' : y.same z = true) :
    x.same z = true := by
  simp only [same, Bool.and_eq_true, Bool.or_eq_true, beq_iff_eq] at h h' ⊢
  obtain ⟨⟨hx, _⟩, h⟩ := h
  obtain ⟨⟨_, hz⟩, h'⟩ := h'
  refine ⟨⟨hx, hz⟩, ?_⟩
  rcases h with h | ⟨h, hm⟩
  · rcases h' with h' | ⟨h', hm'⟩
    · exact .inl (h.trans h')
    · exact .inr ⟨by simpa [isZero, h] using h', hm'⟩
  · rcases h' with h' | ⟨_, hm'⟩
    · exact .inr ⟨h, by simpa [isZero, h'] using hm⟩
    · exact .inr ⟨h, hm'⟩

/-- Equal numbers are both zero or both not. -/
theorem isZero_eq_of_same {x y : Binary64} (h : x.same y = true) : x.isZero = y.isZero := by
  simp only [same, Bool.and_eq_true, Bool.or_eq_true, beq_iff_eq] at h
  rcases h.2 with h | ⟨hx, hy⟩
  · simp [isZero, h]
  · rw [hx, hy]

end Binary64

end LayeredScope
