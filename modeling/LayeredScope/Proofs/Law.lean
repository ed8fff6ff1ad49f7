import LayeredScope.Document.Template

/-!
# Laws of runs

What a run does depends on code of the host, which can do nearly anything. A law says what holds
all the same: a condition that no run ends, and how the state after a run is related to the state
before it.

* `Law` — a condition on states, and a relation that is reflexive and transitive.
* `Run.Keeps L x y` — from a state where the law holds, `y` finishes whatever `x` finishes, in the
  same way, and the law holds there. With `x` for `y` it says that `x` keeps the law; with another
  run for `y` it says that the two differ only where the law does not hold.
* `Law.Around`, `Run.Keeps.lift` — a law that is kept by a run on a state of its own, when another
  is kept there.
* `Laws` — a law of worlds, one of sessions and one of frames that go together.
* `Law.everywhere` — a law of worlds for all of them. It says besides that a stack keeps its
  accessor and its reserved names.
* One lemma for each way of building runs.
-/

namespace LayeredScope

variable {κ σ s t α β : Type}

/-- A condition on states, and where runs lead. -/
structure Law (s : Type) where
  Holds : s → Prop
  Leads : s → s → Prop
  refl : ∀ a, Leads a a
  trans : ∀ {a b c}, Leads a b → Leads b c → Leads a c

/-- From a state where the law holds, `y` finishes whatever `x` finishes, in the same way and as the
law says. -/
def Run.Keeps (L : Law s) (x y : Run s α) : Prop :=
  ∀ a r b, L.Holds a → x a = some (r, b) → y a = some (r, b) ∧ L.Holds b ∧ L.Leads a b

namespace Law

/-- A step from one state to another that the law allows. -/
def Allows (L : Law s) (a b : s) : Prop := L.Holds a → L.Holds b ∧ L.Leads a b

theorem Allows.refl (L : Law s) (a : s) : L.Allows a a := fun h => ⟨h, L.refl a⟩

theorem Allows.trans {L : Law s} {a b c : s} (h : L.Allows a b) (h' : L.Allows b c) :
    L.Allows a c := by
  intro ha
  obtain ⟨hb, hab⟩ := h ha
  obtain ⟨hc, hbc⟩ := h' hb
  exact ⟨hc, L.trans hab hbc⟩

/-- The law that asks for nothing. -/
def free : Law s where
  Holds _ := True
  Leads _ _ := True
  refl _ := trivial
  trans _ _ := trivial

theorem free_allows (a b : s) : free.Allows a b := fun _ => ⟨trivial, trivial⟩

end Law

/-- Every run keeps the law that asks for nothing. -/
theorem Run.Keeps.of_free (x : Run s α) : x.Keeps .free x :=
  fun _ _ _ _ hx => ⟨hx, trivial, trivial⟩

/-! ## Building runs -/

namespace Run.Keeps

variable {L : Law s}

/-- A run that always ends changes the state as some function does. -/
theorem of_step {x : Run s α} (f : s → s) (hx : ∀ a, ∃ r, x a = some (r, f a))
    (hf : ∀ a, L.Allows a (f a)) : Keeps L x x := by
  intro a r b ha h
  obtain ⟨r', hr⟩ := hx a
  refine ⟨h, ?_⟩
  rw [hr] at h
  cases h
  exact hf a ha

theorem pure (v : α) : Keeps L (Pure.pure v) (Pure.pure v) :=
  of_step id (fun _ => ⟨.ok v, rfl⟩) (Law.Allows.refl L)

theorem fail (e : Failure) : Keeps L (Run.fail e : Run s α) (Run.fail e) :=
  of_step id (fun _ => ⟨.error e, rfl⟩) (Law.Allows.refl L)

theorem gets (f : s → α) : Keeps L (Run.gets f) (Run.gets f) :=
  of_step id (fun a => ⟨.ok (f a), rfl⟩) (Law.Allows.refl L)

theorem get : Keeps L (Run.get : Run s s) Run.get := gets id

theorem ofExcept (r : Except Failure α) : Keeps L (Run.ofExcept r) (Run.ofExcept r) :=
  of_step id (fun _ => ⟨r, rfl⟩) (Law.Allows.refl L)

theorem unfinished (y : Run s α) : Keeps L Run.unfinished y :=
  fun _ _ _ _ h => nomatch h

theorem modify {f : s → s} (hf : ∀ a, L.Allows a (f a)) :
    Keeps L (Run.modify f) (Run.modify f) :=
  of_step f (fun _ => ⟨.ok (), rfl⟩) hf

theorem modifyGet {f : s → α × s} (hf : ∀ a, L.Allows a (f a).2) :
    Keeps L (Run.modifyGet f) (Run.modifyGet f) :=
  of_step (fun a => (f a).2) (fun a => ⟨.ok (f a).1, rfl⟩) hf

theorem update {f : s → Except Failure (α × s)}
    (hf : ∀ a v b, f a = .ok (v, b) → L.Allows a b) : Keeps L (Run.update f) (Run.update f) := by
  intro a r b ha h
  refine ⟨h, ?_⟩
  unfold Run.update at h
  cases hfa : f a with
  | error e =>
    rw [hfa] at h
    cases h
    exact ⟨ha, L.refl a⟩
  | ok p =>
    rw [hfa] at h
    cases h
    exact hf a p.1 p.2 hfa ha

theorem bind {x y : Run s α} {f g : α → Run s β} (hx : Keeps L x y)
    (hf : ∀ v, Keeps L (f v) (g v)) : Keeps L (x >>= f) (y >>= g) := by
  intro a r c ha h
  rw [Run.bind_apply] at h
  cases hxa : x a with
  | none => rw [hxa] at h; cases h
  | some p =>
    obtain ⟨r₁, b⟩ := p
    obtain ⟨hy, hb, hab⟩ := hx a r₁ b ha hxa
    rw [hxa] at h
    cases r₁ with
    | error e =>
      cases h
      exact ⟨Run.bind_error hy, hb, hab⟩
    | ok v =>
      obtain ⟨hg, hc, hbc⟩ := hf v b r c hb h
      rw [Run.bind_ok hy]
      exact ⟨hg, hc, L.trans hab hbc⟩

/-- What is read first is the state, where the law holds. -/
theorem bind_get {f g : s → Run s α} (h : ∀ a, L.Holds a → Keeps L (f a) (g a)) :
    Keeps L (Run.get >>= f) (Run.get >>= g) :=
  fun a r b ha hx => h a ha a r b ha hx

theorem attempt {x y : Run s α} (hx : Keeps L x y) : Keeps L x.attempt y.attempt := by
  intro a r b ha h
  unfold Run.attempt at h ⊢
  cases hxa : x a with
  | none => rw [hxa] at h; cases h
  | some p =>
    obtain ⟨r₁, b₁⟩ := p
    obtain ⟨hy, hb, hab⟩ := hx a r₁ b₁ ha hxa
    rw [hxa] at h
    cases h
    rw [hy]
    exact ⟨rfl, hb, hab⟩

end Run.Keeps

/-! ## Runs on a state of their own -/

/-- A run on a state of its own, which is made from the state at hand and taken back at the end. -/
def Run.lift (start : t → s) (finish : t → s → t) (x : Run s α) : Run t α := fun b =>
  match x (start b) with
  | none => none
  | some (r, a) => some (r, finish b a)

section

variable {κ σ α : Type}

theorem Run.onWorld_eq_lift (x : Run (World κ σ) α) :
    x.onWorld = x.lift (·.world) fun s w => ⟨w, s.stack⟩ := by
  funext s
  rw [Run.onWorld_apply, Run.lift]
  cases x s.world <;> rfl

theorem Run.onSession_eq_lift (x : Run (Session κ σ) α) :
    x.onSession = x.lift (·.toSession) fun f s => ⟨s, f.guard⟩ := by
  funext f
  rw [Run.onSession_apply, Run.lift]
  cases x f.toSession <;> rfl

theorem guarded_eq_lift (x : Run (Frame κ σ) α) :
    guarded x = x.lift (⟨·, {}⟩) fun _ f => ⟨f.world, f.guard.close f.stack⟩ := by
  funext s
  rw [guarded_apply, Run.lift]
  cases x ⟨s, {}⟩ <;> rfl

theorem onOwnStack_eq_lift (stack : Stack κ) (x : Run (Session κ σ) α) :
    onOwnStack stack x = x.lift (⟨·, stack⟩) fun _ s => s.world := by
  funext w
  rw [onOwnStack, Run.lift]
  cases x ⟨w, stack⟩ <;> rfl

end

/-- A run on a state of its own keeps `M`, if it keeps `L` there. -/
def Law.Around (M : Law t) (L : Law s) (start : t → s) (finish : t → s → t) : Prop :=
  ∀ b, M.Holds b → L.Holds (start b) ∧
    ∀ a, L.Holds a → L.Leads (start b) a → M.Holds (finish b a) ∧ M.Leads b (finish b a)

theorem Run.Keeps.lift {M : Law t} {L : Law s} {start : t → s} {finish : t → s → t}
    (h : M.Around L start finish) {x y : Run s α} (hx : Keeps L x y) :
    Keeps M (x.lift start finish) (y.lift start finish) := by
  intro b r b' hb hrun
  unfold Run.lift at hrun ⊢
  obtain ⟨hstart, hfinish⟩ := h b hb
  cases hxa : x (start b) with
  | none => rw [hxa] at hrun; cases hrun
  | some p =>
    obtain ⟨r₁, a⟩ := p
    obtain ⟨hy, ha, hlead⟩ := hx (start b) r₁ a hstart hxa
    rw [hxa] at hrun
    cases hrun
    rw [hy]
    exact ⟨rfl, hfinish a ha hlead⟩

/-! ## Laws that go together -/

/-- A law of worlds, one of sessions and one of frames, such that a run inside another keeps the law
of its own state if the other is to keep its law. -/
structure Laws (κ σ : Type) where
  world : Law (World κ σ)
  session : Law (Session κ σ)
  frame : Law (Frame κ σ)
  onWorld : session.Around world (·.world) fun s w => ⟨w, s.stack⟩
  onSession : frame.Around session (·.toSession) fun f s => ⟨s, f.guard⟩
  guarded : session.Around frame (⟨·, {}⟩) fun _ f => ⟨f.world, f.guard.close f.stack⟩
  leads_world : ∀ {s s'}, session.Leads s s' → world.Leads s.world s'.world
  enter : ∀ layer f, frame.Allows f (f.enter layer)
  deepen : ∀ f, frame.Allows f f.deepen
  introduce : ∀ client f, frame.Allows f { f with stack := introduce client f.stack }

namespace Laws

/-- No law of any of them. -/
def free : Laws κ σ where
  world := .free
  session := .free
  frame := .free
  onWorld _ _ := ⟨trivial, fun _ _ _ => ⟨trivial, trivial⟩⟩
  onSession _ _ := ⟨trivial, fun _ _ _ => ⟨trivial, trivial⟩⟩
  guarded _ _ := ⟨trivial, fun _ _ _ => ⟨trivial, trivial⟩⟩
  leads_world _ := trivial
  enter _ _ _ := ⟨trivial, trivial⟩
  deepen _ _ := ⟨trivial, trivial⟩
  introduce _ _ _ := ⟨trivial, trivial⟩

/-- A step of the world that is allowed is allowed in a session. -/
theorem allows_session {L : Laws κ σ} {s : Session κ σ} {w : World κ σ}
    (h : L.world.Allows s.world w) : L.session.Allows s ⟨w, s.stack⟩ := by
  intro hs
  obtain ⟨hstart, hfinish⟩ := L.onWorld s hs
  obtain ⟨hw, hlead⟩ := h hstart
  exact hfinish w hw hlead

/-- So is a step of the session in a frame. -/
theorem allows_frame {L : Laws κ σ} {f : Frame κ σ} {s : Session κ σ}
    (h : L.session.Allows f.toSession s) : L.frame.Allows f ⟨s, f.guard⟩ := by
  intro hf
  obtain ⟨hstart, hfinish⟩ := L.onSession f hf
  obtain ⟨hs, hlead⟩ := h hstart
  exact hfinish s hs hlead

end Laws

namespace Law

variable (L : Law (World κ σ))

/-- A law of worlds, for what lies around a stack. -/
def session : Law (Session κ σ) where
  Holds a := L.Holds a.world
  Leads a b := L.Leads a.world b.world ∧ b.stack.accessor = a.stack.accessor ∧
    b.stack.reserved = a.stack.reserved
  refl a := ⟨L.refl a.world, rfl, rfl⟩
  trans h h' := ⟨L.trans h.1 h'.1, h'.2.1.trans h.2.1, h'.2.2.trans h.2.2⟩

/-- The same under a guard. -/
def frame : Law (Frame κ σ) where
  Holds a := L.session.Holds a.toSession
  Leads a b := L.session.Leads a.toSession b.toSession
  refl a := L.session.refl a.toSession
  trans h h' := L.session.trans h h'

/-- A change of the stack that leaves the accessor and the reserved names alone. -/
theorem frame_allows {L : Law (World κ σ)} {f : Frame κ σ} {stack : Stack κ} {guard : Guard}
    (haccessor : stack.accessor = f.stack.accessor)
    (hreserved : stack.reserved = f.stack.reserved) :
    L.frame.Allows f ⟨⟨f.world, stack⟩, guard⟩ :=
  fun hf => ⟨hf, L.refl f.world, haccessor, hreserved⟩

/-- A law of worlds, for sessions and for frames as well. -/
def everywhere : Laws κ σ where
  world := L
  session := L.session
  frame := L.frame
  onWorld _ hs := ⟨hs, fun _ hw hlead => ⟨hw, hlead, rfl, rfl⟩⟩
  onSession _ hf := ⟨hf, fun _ hs hlead => ⟨hs, hlead⟩⟩
  guarded _ hs := ⟨hs, fun _ hf hlead => ⟨hf, hlead⟩⟩
  leads_world h := h.1
  enter _ _ := frame_allows rfl rfl
  deepen _ := frame_allows rfl rfl
  introduce client _ := by
    cases client with
    | none => exact frame_allows rfl rfl
    | some v => exact frame_allows rfl rfl

end Law

/-! ## Runs inside runs -/

namespace Run.Keeps

variable {L : Laws κ σ}

theorem onWorld {x y : Run (World κ σ) α} (hx : Keeps L.world x y) :
    Keeps L.session x.onWorld y.onWorld := by
  rw [onWorld_eq_lift, onWorld_eq_lift]
  exact lift L.onWorld hx

theorem onSession {x y : Run (Session κ σ) α} (hx : Keeps L.session x y) :
    Keeps L.frame x.onSession y.onSession := by
  rw [onSession_eq_lift, onSession_eq_lift]
  exact lift L.onSession hx

theorem guarded {x y : Run (Frame κ σ) α} (hx : Keeps L.frame x y) :
    Keeps L.session (LayeredScope.guarded x) (LayeredScope.guarded y) := by
  rw [guarded_eq_lift, guarded_eq_lift]
  exact lift L.guarded hx

/-- A stack of one's own has to be one on which the law can hold. -/
theorem onOwnStack {x y : Run (Session κ σ) α} {stack : Stack κ}
    (hown : ∀ w, L.world.Holds w → L.session.Holds ⟨w, stack⟩) (hx : Keeps L.session x y) :
    Keeps L.world (LayeredScope.onOwnStack stack x) (LayeredScope.onOwnStack stack y) := by
  have haround : L.world.Around L.session (⟨·, stack⟩) fun _ s => s.world :=
    fun w hw => ⟨hown w hw, fun s hs hlead => ⟨(L.onWorld s hs).1, L.leads_world hlead⟩⟩
  rw [onOwnStack_eq_lift, onOwnStack_eq_lift]
  exact lift haround hx

theorem enter (layer : Layer) :
    Keeps L.frame (LayeredScope.enter layer) (LayeredScope.enter layer) :=
  modify (L.enter layer)

theorem deepen : Keeps L.frame LayeredScope.deepen LayeredScope.deepen := modify L.deepen

theorem enterAll (layers : List Layer) :
    Keeps L.frame (LayeredScope.enterAll layers) (LayeredScope.enterAll layers) := by
  induction layers with
  | nil => exact pure ()
  | cons layer rest ih => exact bind (enter layer) fun _ => ih

theorem withLayers {x y : Run (Session κ σ) α} (layers : List Layer) (hx : Keeps L.session x y) :
    Keeps L.session (LayeredScope.withLayers layers x) (LayeredScope.withLayers layers y) :=
  guarded (bind (enterAll layers) fun _ => onSession hx)

end Run.Keeps

end LayeredScope
