import LayeredScope.Proofs.Law

/-!
# What a run preserves

* `Run.Preserves` — a condition on the state that holds before a run holds after it, whatever the
  outcome. A run that preserves a condition keeps a law (`Run.preserves_iff_keeps`).
* `Frame.Over` — the invariant of a guard: the layers of the frame are a block that the guard has
  counted, on top of the layers that were there.
* `Laws.layers` — the layers are those that were there, and under a guard those that were there are
  still below. **A guard gives back the layers that it started from.**
-/

namespace LayeredScope

variable {κ σ : Type} {s α β : Type}

/-- If `P` holds before the run, it holds after it, whatever the outcome. -/
def Run.Preserves (P : s → Prop) (x : Run s α) : Prop :=
  ∀ a r b, P a → x a = some (r, b) → P b

/-- The law that a condition holds. -/
def Law.preserving (P : s → Prop) : Law s where
  Holds := P
  Leads _ _ := True
  refl _ := trivial
  trans _ _ := trivial

theorem Run.preserves_iff_keeps {P : s → Prop} {x : Run s α} :
    x.Preserves P ↔ x.Keeps (.preserving P) x :=
  ⟨fun h a r b ha hx => ⟨hx, h a r b ha hx, trivial⟩, fun h a r b ha hx => (h a r b ha hx).2.1⟩

namespace Run.Preserves

variable {P : s → Prop}

theorem pure (v : α) : Preserves P (Pure.pure v : Run s α) := preserves_iff_keeps.mpr (.pure v)

theorem fail (e : Failure) : Preserves P (Run.fail e : Run s α) := preserves_iff_keeps.mpr (.fail e)

theorem gets (f : s → α) : Preserves P (Run.gets f) := preserves_iff_keeps.mpr (.gets f)

theorem get : Preserves P (Run.get : Run s s) := gets id

theorem modify {f : s → s} (hf : ∀ a, P a → P (f a)) : Preserves P (Run.modify f) :=
  preserves_iff_keeps.mpr (.modify fun a ha => ⟨hf a ha, trivial⟩)

theorem update {f : s → Except Failure (α × s)}
    (hf : ∀ a v b, P a → f a = .ok (v, b) → P b) : Preserves P (Run.update f) :=
  preserves_iff_keeps.mpr (.update fun a v b hb ha => ⟨hf a v b ha hb, trivial⟩)

theorem bind {x : Run s α} {f : α → Run s β} (hx : Preserves P x) (hf : ∀ v, Preserves P (f v)) :
    Preserves P (x >>= f) :=
  preserves_iff_keeps.mpr
    (.bind (preserves_iff_keeps.mp hx) fun v => preserves_iff_keeps.mp (hf v))

/-- What is said of the guard alone is preserved by any run on the session under it. -/
theorem onSession_guard {Q : Guard → Prop} (x : Run (Session κ σ) α) :
    Preserves (fun f : Frame κ σ => Q f.guard) x.onSession := by
  intro f r g hf h
  rw [Run.onSession_apply] at h
  split at h
  · cases h
  · cases h
    exact hf

end Run.Preserves

/-! ## Guards -/

/-- The layers of the frame are those that its guard has counted, on top of `base`. -/
def Frame.Over (base : List Layer) (f : Frame κ σ) : Prop :=
  ∃ block, f.stack.layers = block ++ base ∧ block.length = f.guard.entered

theorem Frame.Over.enter {base : List Layer} {f : Frame κ σ} (h : f.Over base) (layer : Layer) :
    (f.enter layer).Over base := by
  obtain ⟨block, hlayers, hcount⟩ := h
  refine ⟨layer :: block, ?_, ?_⟩
  · show layer :: f.stack.layers = _
    rw [hlayers]
    rfl
  · show block.length + 1 = f.guard.entered + 1
    rw [hcount]

/-- Closing the guard takes off what it has counted and nothing else. -/
theorem Frame.Over.close_layers {base : List Layer} {f : Frame κ σ} (h : f.Over base) :
    (f.guard.close f.stack).layers = base := by
  obtain ⟨block, hlayers, hcount⟩ := h
  rw [Guard.close_eq hlayers hcount]

theorem introduce_layers (client : Option Value) (st : Stack κ) :
    (introduce client st).layers = st.layers := by
  cases client <;> rfl

/-- The layers of a stack are those that were there. Under a guard that is so of the layers below
those that it has counted. -/
def Laws.layers : Laws κ σ where
  world := .free
  session :=
    { Holds := fun _ => True
      Leads := fun s s' => s'.stack.layers = s.stack.layers
      refl := fun _ => rfl
      trans := fun h h' => h'.trans h }
  frame :=
    { Holds := fun _ => True
      Leads := fun f f' => ∀ base, f.Over base → f'.Over base
      refl := fun _ _ hf => hf
      trans := fun h h' base hf => h' base (h base hf) }
  onWorld _ _ := ⟨trivial, fun _ _ _ => ⟨trivial, rfl⟩⟩
  onSession _ _ := ⟨trivial, fun _ _ hlead => ⟨trivial, fun _ ⟨block, hlayers, hcount⟩ =>
    ⟨block, hlead.trans hlayers, hcount⟩⟩⟩
  guarded s _ := ⟨trivial, fun _ _ hlead =>
    ⟨trivial, (hlead s.stack.layers ⟨[], rfl, rfl⟩).close_layers⟩⟩
  leads_world _ := trivial
  enter layer _ _ := ⟨trivial, fun _ hf => hf.enter layer⟩
  deepen _ _ := ⟨trivial, fun _ hf => hf⟩
  introduce client f _ := ⟨trivial, fun _ ⟨block, hlayers, hcount⟩ =>
    ⟨block, (introduce_layers client f.stack).trans hlayers, hcount⟩⟩

end LayeredScope
