import LayeredScope.Failure

/-!
# Runs

* `Run s α` — a computation that reads and changes a state of type `s` and ends with a value or a
  failure. The state that a failing computation leaves is kept. A run may also be left
  unfinished, when the fuel that was set aside for calls back and forth is used up.
* `Run.attempt` — a failure becomes an answer.

The monad laws hold (`LawfulMonad`).
-/

namespace LayeredScope

/-- A computation over a state; `none` is a run that was left unfinished. -/
def Run (s α : Type) : Type := s → Option (Except Failure α × s)

namespace Run

variable {s α β : Type}

/-- Continue with a value, and stop at a failure. -/
def andThen (x : Run s α) (f : α → Run s β) : Run s β := fun a =>
  match x a with
  | none => none
  | some (.error e, b) => some (.error e, b)
  | some (.ok v, b) => f v b

instance : Monad (Run s) where
  pure v := fun a => some (.ok v, a)
  bind := andThen

/-- End with a failure. -/
def fail (e : Failure) : Run s α := fun a => some (.error e, a)

/-- Leave the run unfinished. -/
def unfinished : Run s α := fun _ => none

def get : Run s s := fun a => some (.ok a, a)

/-- Read the state. -/
def gets (f : s → α) : Run s α := fun a => some (.ok (f a), a)

/-- Change the state. -/
def modify (f : s → s) : Run s Unit := fun a => some (.ok (), f a)

/-- Change the state and answer. -/
def modifyGet (f : s → α × s) : Run s α := fun a => some (.ok (f a).1, (f a).2)

/-- Change the state and answer, or fail and change nothing. -/
def update (f : s → Except Failure (α × s)) : Run s α := fun a =>
  match f a with
  | .ok (v, b) => some (.ok v, b)
  | .error e => some (.error e, a)

/-- A value or a failure that is already known. -/
def ofExcept (r : Except Failure α) : Run s α := fun a => some (r, a)

/-- The outcome, be it a value or a failure. -/
def attempt (x : Run s α) : Run s (Except Failure α) := fun a =>
  match x a with
  | none => none
  | some (r, b) => some (.ok r, b)

/-! ## Equations -/

@[simp] theorem pure_apply (v : α) (a : s) : (pure v : Run s α) a = some (.ok v, a) := rfl

theorem bind_apply (x : Run s α) (f : α → Run s β) (a : s) :
    (x >>= f) a =
      match x a with
      | none => none
      | some (.error e, b) => some (.error e, b)
      | some (.ok v, b) => f v b := rfl

theorem bind_ok {x : Run s α} {f : α → Run s β} {a b : s} {v : α} (h : x a = some (.ok v, b)) :
    (x >>= f) a = f v b := by
  rw [bind_apply, h]

theorem bind_error {x : Run s α} {f : α → Run s β} {a b : s} {e : Failure}
    (h : x a = some (.error e, b)) : (x >>= f) a = some (.error e, b) := by
  rw [bind_apply, h]

theorem bind_unfinished {x : Run s α} {f : α → Run s β} {a : s} (h : x a = none) :
    (x >>= f) a = none := by
  rw [bind_apply, h]

/-- A failure comes from the first part of a run, or from what it goes on with. -/
theorem of_bind_error {x : Run s α} {f : α → Run s β} {a b : s} {e : Failure}
    (h : (x >>= f) a = some (.error e, b)) :
    x a = some (.error e, b) ∨ ∃ v c, x a = some (.ok v, c) ∧ f v c = some (.error e, b) := by
  rw [bind_apply] at h
  cases hx : x a with
  | none => rw [hx] at h; cases h
  | some p =>
    obtain ⟨r, c⟩ := p
    rw [hx] at h
    cases r with
    | error e' =>
      cases h
      exact .inl rfl
    | ok v => exact .inr ⟨v, c, rfl, h⟩

theorem attempt_eq {x : Run s α} {a b : s} {r : Except Failure α} (h : x a = some (r, b)) :
    x.attempt a = some (.ok r, b) := by
  unfold attempt
  rw [h]

@[simp] theorem fail_apply (e : Failure) (a : s) : (fail e : Run s α) a = some (.error e, a) :=
  rfl

@[simp] theorem get_apply (a : s) : (get : Run s s) a = some (.ok a, a) := rfl

@[simp] theorem gets_apply (f : s → α) (a : s) : gets f a = some (.ok (f a), a) := rfl

@[simp] theorem modify_apply (f : s → s) (a : s) : modify f a = some (.ok (), f a) := rfl

@[simp] theorem modifyGet_apply (f : s → α × s) (a : s) :
    modifyGet f a = some (.ok (f a).1, (f a).2) := rfl

@[simp] theorem ofExcept_apply (r : Except Failure α) (a : s) : ofExcept r a = some (r, a) := rfl

@[simp] theorem unfinished_apply (a : s) : (unfinished : Run s α) a = none := rfl

/-- Two runs are the same if they do the same from every state. -/
theorem ext {x y : Run s α} (h : ∀ a, x a = y a) : x = y := funext h

theorem map_id (x : Run s α) : andThen x (fun v => pure v) = x := by
  refine ext fun a => ?_
  unfold andThen
  split <;> simp_all

theorem andThen_assoc {γ : Type} (x : Run s α) (f : α → Run s β) (g : β → Run s γ) :
    andThen (andThen x f) g = andThen x (fun v => andThen (f v) g) := by
  refine ext fun a => ?_
  unfold andThen
  cases x a with
  | none => rfl
  | some p =>
    obtain ⟨r, b⟩ := p
    cases r <;> rfl

instance : LawfulMonad (Run s) :=
  LawfulMonad.mk' (Run s) map_id (fun _ _ => rfl) andThen_assoc

end Run

end LayeredScope
