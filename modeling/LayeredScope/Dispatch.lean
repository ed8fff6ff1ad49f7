import LayeredScope.Session

/-!
# Calls that a value answers by itself

* `Dispatch` — the calls whose answer depends on what stands behind an identity, or on the code of
  the host. Everything else in the library is a definition over such a record, so what it does can
  be stated for every answer that a value may give.
* `Dispatch.Le` — one record finishes whatever the other finishes, with the same outcome.
-/

namespace LayeredScope

/-- The answers of values and of the host's code. -/
structure Dispatch (κ σ : Type) where
  /-- A named attribute of a value. -/
  readAttr : Value → String → Run (World κ σ) Value
  /-- What an object that is a layer holds under a key; `none` is a miss. -/
  readItem : ObjectId → String → Run (World κ σ) (Option Value)
  /-- Invoke without arguments. -/
  call : Value → Run (World κ σ) Value
  /-- Invoke as a template, with a client, on a stack. -/
  apply : Value → Option Value → Run (Session κ σ) Value
  /-- What an object answers for itself when it is looked up; `none` if it has no such hook. -/
  hook : ObjectId → Run (Session κ σ) (Option Value)
  /-- What a custom accessor answers. -/
  access : κ → Value → String → Run (World κ σ) Value
  /-- Run code on a stack. -/
  evaluate : κ → Run (Session κ σ) Value

/-- `y` finishes every run that `x` finishes, in the same way. -/
def Run.Le {s α : Type} (x y : Run s α) : Prop := ∀ a p, x a = some p → y a = some p

/-- `e` finishes every call that `d` finishes, in the same way. -/
structure Dispatch.Le {κ σ : Type} (d e : Dispatch κ σ) : Prop where
  readAttr : ∀ v name, (d.readAttr v name).Le (e.readAttr v name)
  readItem : ∀ id key, (d.readItem id key).Le (e.readItem id key)
  call : ∀ v, (d.call v).Le (e.call v)
  apply : ∀ v client, (d.apply v client).Le (e.apply v client)
  hook : ∀ id, (d.hook id).Le (e.hook id)
  access : ∀ c v name, (d.access c v name).Le (e.access c v name)
  evaluate : ∀ c, (d.evaluate c).Le (e.evaluate c)

namespace Run.Le

variable {s α β : Type}

theorem refl (x : Run s α) : x.Le x := fun _ _ h => h

theorem bind {x y : Run s α} {f g : α → Run s β} (h : x.Le y) (hf : ∀ v, (f v).Le (g v)) :
    (x >>= f).Le (y >>= g) := by
  intro a p hp
  rw [Run.bind_apply] at hp ⊢
  cases hx : x a with
  | none => rw [hx] at hp; cases hp
  | some q =>
    rw [hx] at hp
    rw [h a q hx]
    obtain ⟨r, b⟩ := q
    cases r with
    | error e => exact hp
    | ok v => exact hf v b p hp

end Run.Le

end LayeredScope
