import LayeredScope.Proofs.Conditions

/-!
# What a look-up invokes

What becomes of a value that was found depends on four capabilities of it that have nothing to do
with each other: a hook, something that it wraps, whether it can be called and whether it is a
template. A wrapper that says one thing of itself may wrap a value that says another, or itself.

* `Request`, `Dispatch.tallied` — the same answers of values, with a tally of the calls that are put
  to them. What a value asks for while it answers is its own affair and is not counted.
* `Dispatch.Declines`, `Dispatch.Resolves` — which calls a value is put, and what comes of them, by
  its capabilities.
* `Dispatch.onAccess_tallied` — look-ups put these calls, and no other.
* `Dispatch.resolves_exactly` — **one call at most after the hook, and always to the value that was
  found**.
-/

namespace LayeredScope

variable {κ σ τ α : Type}

/-! ## Counting calls -/

/-- A call that is put to a value or to the host's code. -/
inductive Request (κ : Type) where
  | readAttr (v : Value) (name : String)
  | readItem (id : ObjectId) (key : String)
  | call (v : Value)
  | apply (v : Value) (client : Option Value)
  | hook (id : ObjectId)
  | access (code : κ) (v : Value) (name : String)
  | evaluate (code : κ)

/-- What is counted, the first call first. -/
abbrev Tally (κ : Type) := List (Request κ)

/-- The world of a host that keeps something else. -/
def World.withHost (w : World κ σ) (host : τ) : World κ τ :=
  { maps := w.maps, objects := w.objects, functions := w.functions, enclosures := w.enclosures, host
    journal := w.journal }

/-- A world with a tally beside it. -/
def World.tally (w : World κ σ) (t : Tally κ) : World κ (σ × Tally κ) := w.withHost (w.host, t)

/-- The world without its tally. -/
def World.untallied (w : World κ (σ × Tally κ)) : World κ σ := w.withHost w.host.1

/-- A session with a tally beside it. -/
def Session.tally (s : Session κ σ) (t : Tally κ) : Session κ (σ × Tally κ) :=
  ⟨s.world.tally t, s.stack⟩

/-- Count a call on a world. -/
def Run.countOnWorld (request : Request κ) (x : Run (World κ σ) α) :
    Run (World κ (σ × Tally κ)) α := fun w =>
  (x w.untallied).map fun p => (p.1, p.2.tally (w.host.2 ++ [request]))

/-- Count a call on a stack. -/
def Run.count (request : Request κ) (x : Run (Session κ σ) α) :
    Run (Session κ (σ × Tally κ)) α := fun s =>
  (x ⟨s.world.untallied, s.stack⟩).map fun p => (p.1, p.2.tally (s.world.host.2 ++ [request]))

/-- The same answers, and every call is counted. -/
def Dispatch.tallied (d : Dispatch κ σ) : Dispatch κ (σ × Tally κ) where
  readAttr v name := (d.readAttr v name).countOnWorld (.readAttr v name)
  readItem id key := (d.readItem id key).countOnWorld (.readItem id key)
  call v := (d.call v).countOnWorld (.call v)
  apply v client := (d.apply v client).count (.apply v client)
  hook id := (d.hook id).count (.hook id)
  access code v name := (d.access code v name).countOnWorld (.access code v name)
  evaluate code := (d.evaluate code).count (.evaluate code)

section

variable (w : World κ σ) (s : Session κ σ) (t : Tally κ)

theorem World.treatment_tally (v : Value) : (w.tally t).treatment v = w.treatment v := by
  cases v <;> rfl

/-- It is one call, whether it is counted on the world or on the stack. -/
theorem Run.onWorld_countOnWorld (request : Request κ) (x : Run (World κ σ) α) :
    (x.countOnWorld request).onWorld = x.onWorld.count request := by
  funext s
  cases hx : x s.world.untallied <;> simp [Run.onWorld_apply, Run.countOnWorld, Run.count, hx]
  rfl

theorem Run.count_tally (request : Request κ) (x : Run (Session κ σ) α) :
    x.count request (s.tally t) = (x s).map fun p => (p.1, p.2.tally (t ++ [request])) :=
  rfl

end

/-- A session and a tally can be told from the two together. -/
theorem Session.tally_inj {s s' : Session κ σ} {t t' : Tally κ} (h : s.tally t = s'.tally t') :
    s = s' ∧ t = t' := by
  obtain ⟨⟨maps, objects, functions, enclosures, host, journal⟩, stack⟩ := s
  obtain ⟨⟨maps', objects', functions', enclosures', host', journal'⟩, stack'⟩ := s'
  cases h
  exact ⟨rfl, rfl⟩

/-! ## What a value is put -/

/-- The value that says whether another is to be invoked: what that one wraps, or itself. -/
def World.subject (w : World κ σ) (v : Value) : Value := (w.inner v).getD v

section

variable (w : World κ σ) (v : Value)

theorem World.treatment_eq :
    w.treatment v =
      if w.isCallable (w.subject v) then
        if w.isTemplate (w.subject v) then .template else .plain
      else .inert := rfl

theorem World.treatment_eq_inert :
    w.treatment v = .inert ↔ w.isCallable (w.subject v) = false := by
  rw [World.treatment_eq]
  cases w.isCallable (w.subject v) <;> cases w.isTemplate (w.subject v) <;> simp

theorem World.treatment_eq_template :
    w.treatment v = .template ↔
      w.isCallable (w.subject v) = true ∧ w.isTemplate (w.subject v) = true := by
  rw [World.treatment_eq]
  cases w.isCallable (w.subject v) <;> cases w.isTemplate (w.subject v) <;> simp

theorem World.treatment_eq_plain :
    w.treatment v = .plain ↔
      w.isCallable (w.subject v) = true ∧ w.isTemplate (w.subject v) = false := by
  rw [World.treatment_eq]
  cases w.isCallable (w.subject v) <;> cases w.isTemplate (w.subject v) <;> simp

end

namespace Dispatch

variable (d : Dispatch κ σ)

/-- The value does not answer for itself: it is no object, or its hook says so. -/
inductive Declines : Value → Session κ σ → Tally κ → Session κ σ → Prop
  | unasked {v : Value} {s : Session κ σ} (plain : ∀ id, v ≠ .object id) : Declines v s [] s
  | declined {id : ObjectId} {s s' : Session κ σ} (none : d.hook id s = some (.ok none, s')) :
      Declines (.object id) s [.hook id] s'

/-- The calls that are put to a value, and the outcome. -/
inductive Resolves : Value → Session κ σ → Tally κ → Except Failure Value → Session κ σ → Prop
  /-- The hook has an answer. -/
  | answered {id : ObjectId} {answer : Value} {s s' : Session κ σ}
      (hook : d.hook id s = some (.ok (some answer), s')) :
      Resolves (.object id) s [.hook id] (.ok answer) s'
  /-- The answer of the hook is a failure. -/
  | refused {id : ObjectId} {e : Failure} {s s' : Session κ σ}
      (hook : d.hook id s = some (.error e, s')) :
      Resolves (.object id) s [.hook id] (.error e) s'
  /-- The subject cannot be called. -/
  | inert {v : Value} {s s' : Session κ σ} {asked : Tally κ} (declines : d.Declines v s asked s')
      (callable : s'.world.isCallable (s'.world.subject v) = false) :
      Resolves v s asked (.ok v) s'
  /-- The subject can be called and is a template. -/
  | template {v : Value} {s s₁ s' : Session κ σ} {asked : Tally κ} {r : Except Failure Value}
      (declines : d.Declines v s asked s₁)
      (callable : s₁.world.isCallable (s₁.world.subject v) = true)
      (template : s₁.world.isTemplate (s₁.world.subject v) = true)
      (invoked : d.apply v none (s₁.noting (.applied v)) = some (r, s')) :
      Resolves v s (asked ++ [.apply v none]) r s'
  /-- The subject can be called and is not a template. -/
  | plain {v : Value} {s s₁ s' : Session κ σ} {asked : Tally κ} {r : Except Failure Value}
      (declines : d.Declines v s asked s₁)
      (callable : s₁.world.isCallable (s₁.world.subject v) = true)
      (template : s₁.world.isTemplate (s₁.world.subject v) = false)
      (invoked : (d.call v).onWorld (s₁.noting (.called v)) = some (r, s')) :
      Resolves v s (asked ++ [.call v]) r s'

variable {d} {v : Value} {s s₁ s' : Session κ σ} {asked : Tally κ} {r : Except Failure Value}

/-! ## The calls that are made -/

theorem hook_tallied {id : ObjectId} {answer : Except Failure (Option Value)}
    (h : d.hook id s = some (answer, s')) (t : Tally κ) :
    d.tallied.hook id (s.tally t) = some (answer, s'.tally (t ++ [.hook id])) := by
  show (d.hook id).count (.hook id) (s.tally t) = _
  rw [Run.count_tally, h]
  rfl

/-- What a value without an answer of its own is put, in any world with a tally. -/
theorem invoke_tallied (v : Value) (s : Session κ σ) (t : Tally κ) :
    d.tallied.invoke v (s.tally t) =
      match s.world.treatment v with
      | .inert => some (.ok v, s.tally t)
      | .template => (d.apply v none (s.noting (.applied v))).map fun p =>
          (p.1, p.2.tally (t ++ [.apply v none]))
      | .plain => ((d.call v).onWorld (s.noting (.called v))).map fun p =>
          (p.1, p.2.tally (t ++ [.call v])) := by
  have htreatment : (s.tally t).world.treatment v = s.world.treatment v :=
    s.world.treatment_tally t v
  rw [invoke_apply, htreatment]
  cases s.world.treatment v with
  | inert => rfl
  | template => rfl
  | plain =>
    show ((d.call v).countOnWorld (.call v)).onWorld ((s.noting (.called v)).tally t) = _
    rw [Run.onWorld_countOnWorld, Run.count_tally]

theorem Declines.onAccess_tallied (h : d.Declines v s asked s₁) (t : Tally κ) :
    d.tallied.onAccess v (s.tally t) = d.tallied.invoke v (s₁.tally (t ++ asked)) := by
  cases h with
  | unasked plain =>
    rw [List.append_nil]
    cases v with
    | object id => exact absurd rfl (plain id)
    | _ => rfl
  | declined hook => exact Run.bind_ok (hook_tallied hook t)

/-- What is put to a value is what its capabilities say. -/
theorem Resolves.onAccess_tallied (h : d.Resolves v s asked r s') (t : Tally κ) :
    d.tallied.onAccess v (s.tally t) = some (r, s'.tally (t ++ asked)) := by
  cases h with
  | answered hook => exact Run.bind_ok (hook_tallied hook t)
  | refused hook => exact Run.bind_error (hook_tallied hook t)
  | inert declines callable =>
    rw [declines.onAccess_tallied, invoke_tallied, (World.treatment_eq_inert _ _).mpr callable]
  | template declines callable template invoked =>
    rw [declines.onAccess_tallied, invoke_tallied,
      (World.treatment_eq_template _ _).mpr ⟨callable, template⟩]
    dsimp only
    rw [invoked, List.append_assoc]
    rfl
  | plain declines callable template invoked =>
    rw [declines.onAccess_tallied, invoke_tallied,
      (World.treatment_eq_plain _ _).mpr ⟨callable, template⟩]
    dsimp only
    rw [invoked, List.append_assoc]
    rfl

/-- A value without an answer of its own is put the calls that its subject says. -/
theorem Declines.of_invoke (h : d.Declines v s asked s₁)
    (hx : d.invoke v s₁ = some (r, s')) : ∃ asked, d.Resolves v s asked r s' := by
  rw [invoke_apply] at hx
  cases htreatment : s₁.world.treatment v with
  | inert =>
    rw [htreatment] at hx
    cases hx
    exact ⟨_, .inert h ((World.treatment_eq_inert _ _).mp htreatment)⟩
  | template =>
    rw [htreatment] at hx
    obtain ⟨hcallable, htemplate⟩ := (World.treatment_eq_template _ _).mp htreatment
    exact ⟨_, .template h hcallable htemplate hx⟩
  | plain =>
    rw [htreatment] at hx
    obtain ⟨hcallable, htemplate⟩ := (World.treatment_eq_plain _ _).mp htreatment
    exact ⟨_, .plain h hcallable htemplate hx⟩

/-- An object answers for itself, or else declines to. -/
theorem onAccess_object (id : ObjectId) (s : Session κ σ) :
    d.onAccess (.object id) s =
      match d.hook id s with
      | none => none
      | some (.error e, s') => some (.error e, s')
      | some (.ok (some answer), s') => some (.ok answer, s')
      | some (.ok none, s') => d.invoke (.object id) s' := by
  show (d.hook id >>= _) s = _
  rw [Run.bind_apply]
  rcases d.hook id s with _ | ⟨e | _ | answer, s'⟩ <;> rfl

theorem onAccess_of_ne (hplain : ∀ id, v ≠ .object id) : d.onAccess v = d.invoke v := by
  cases v with
  | object id => exact absurd rfl (hplain id)
  | _ => rfl

/-- Whatever a look-up makes of a value, its capabilities say so. -/
theorem exists_resolves (hx : d.onAccess v s = some (r, s')) :
    ∃ asked, d.Resolves v s asked r s' := by
  by_cases hobject : ∃ id, v = .object id
  · obtain ⟨id, rfl⟩ := hobject
    rw [onAccess_object] at hx
    rcases hhook : d.hook id s with _ | ⟨e | _ | answer, s₁⟩ <;> rw [hhook] at hx
    · cases hx
    · cases hx
      exact ⟨_, .refused hhook⟩
    · exact Declines.of_invoke (.declined hhook) hx
    · cases hx
      exact ⟨_, .answered hhook⟩
  · have hplain : ∀ id, v ≠ .object id := fun id hv => hobject ⟨id, hv⟩
    rw [onAccess_of_ne hplain] at hx
    exact Declines.of_invoke (.unasked hplain) hx

/-- The tally only counts. -/
theorem invoke_tally (v : Value) (s : Session κ σ) (t : Tally κ) :
    ∃ asked, d.tallied.invoke v (s.tally t) =
      (d.invoke v s).map fun p => (p.1, p.2.tally (t ++ asked)) := by
  rw [invoke_tallied, invoke_apply]
  cases s.world.treatment v with
  | inert => exact ⟨[], by rw [List.append_nil]; rfl⟩
  | template => exact ⟨_, rfl⟩
  | plain => exact ⟨_, rfl⟩

theorem onAccess_tally (v : Value) (s : Session κ σ) (t : Tally κ) :
    ∃ asked, d.tallied.onAccess v (s.tally t) =
      (d.onAccess v s).map fun p => (p.1, p.2.tally (t ++ asked)) := by
  by_cases hobject : ∃ id, v = .object id
  · obtain ⟨id, rfl⟩ := hobject
    have hcounted : d.tallied.hook id (s.tally t) =
        (d.hook id s).map fun p => (p.1, p.2.tally (t ++ [.hook id])) := rfl
    rw [onAccess_object, onAccess_object, hcounted]
    rcases d.hook id s with _ | ⟨e | _ | answer, s₁⟩
    · exact ⟨[], rfl⟩
    · exact ⟨_, rfl⟩
    · obtain ⟨asked, hinvoked⟩ := invoke_tally (.object id) s₁ (t ++ [.hook id])
      exact ⟨[.hook id] ++ asked, by rw [← List.append_assoc]; exact hinvoked⟩
    · exact ⟨_, rfl⟩
  · have hplain : ∀ id, v ≠ .object id := fun id hv => hobject ⟨id, hv⟩
    rw [onAccess_of_ne hplain, onAccess_of_ne hplain]
    exact invoke_tally v s t

theorem exists_resolves_tallied {t : Tally κ} {p : Session κ (σ × Tally κ)}
    (hx : d.tallied.onAccess v (s.tally t) = some (r, p)) :
    ∃ asked s', d.Resolves v s asked r s' ∧ p = s'.tally (t ++ asked) := by
  obtain ⟨_, hcounted⟩ := d.onAccess_tally v s t
  obtain ⟨⟨r₁, s'⟩, hplain, hsame⟩ := Option.map_eq_some_iff.mp (hcounted.symm.trans hx)
  obtain ⟨asked, hresolves⟩ := exists_resolves hplain
  obtain rfl : r₁ = r := congrArg Prod.fst hsame
  have hboth := (hresolves.onAccess_tallied t).symm.trans hx
  exact ⟨asked, s', hresolves, (congrArg Prod.snd (Option.some.inj hboth)).symm⟩

theorem Resolves.onAccess_eq (h : d.Resolves v s asked r s') : d.onAccess v s = some (r, s') := by
  obtain ⟨_, hcounted⟩ := d.onAccess_tally v s []
  obtain ⟨⟨r₁, s₁⟩, hplain, hsame⟩ :=
    Option.map_eq_some_iff.mp (hcounted.symm.trans (h.onAccess_tallied []))
  obtain rfl : r₁ = r := congrArg Prod.fst hsame
  obtain ⟨rfl, -⟩ := Session.tally_inj (congrArg Prod.snd hsame)
  exact hplain

/-! ## Wrappers -/

theorem Declines.unique {s₂ : Session κ σ} {asked' : Tally κ} (h : d.Declines v s asked s₁)
    (h' : d.Declines v s asked' s₂) : asked' = asked ∧ s₂ = s₁ := by
  cases h with
  | unasked plain =>
    cases h' with
    | unasked => exact ⟨rfl, rfl⟩
    | declined => exact absurd rfl (plain _)
  | declined hook =>
    cases h' with
    | unasked plain => exact absurd rfl (plain _)
    | declined hook' =>
      cases hook.symm.trans hook'
      exact ⟨rfl, rfl⟩

/-- What is put to a wrapper after its hook, by what it wraps. -/
theorem Resolves.asked_of_inner {before : Tally κ} {u : Value} (hbefore : d.Declines v s before s₁)
    (hinner : s₁.world.inner v = some u) (h : d.Resolves v s asked r s') :
    asked = before ++
      if s₁.world.isCallable u then
        if s₁.world.isTemplate u then [.apply v none] else [.call v]
      else [] := by
  have hsubject : s₁.world.subject v = u := by
    rw [World.subject, hinner]
    rfl
  cases h with
  | answered hook =>
    cases hbefore with
    | unasked plain => exact absurd rfl (plain _)
    | declined none => cases hook.symm.trans none
  | refused hook =>
    cases hbefore with
    | unasked plain => exact absurd rfl (plain _)
    | declined none => cases hook.symm.trans none
  | inert declines callable =>
    obtain ⟨rfl, rfl⟩ := hbefore.unique declines
    rw [hsubject] at callable
    rw [callable]
    exact (List.append_nil _).symm
  | template declines callable template =>
    obtain ⟨rfl, rfl⟩ := hbefore.unique declines
    rw [hsubject] at callable template
    rw [callable, template]
    rfl
  | plain declines callable template =>
    obtain ⟨rfl, rfl⟩ := hbefore.unique declines
    rw [hsubject] at callable template
    rw [callable, template]
    rfl

/-! ## Main theorem -/

/-- **What a look-up makes of a value depends on its capabilities as `Resolves` says**, whatever
they do.

* These are the calls that are made, no more and no fewer, and their outcome is the outcome. An
  answer of the hook is the end of it; otherwise a subject that cannot be called leaves the value as
  it is, and one that can be called has the value itself invoked once, as a template or without
  arguments.
* Only one of the ways to go is open.
* Of a wrapper it does not matter whether it can be called or is a template itself, nor what lies
  deeper in what it wraps. -/
theorem resolves_exactly (d : Dispatch κ σ) (v : Value) :
    (∀ s t r p, d.tallied.onAccess v (s.tally t) = some (r, p) ↔
      ∃ asked s', d.Resolves v s asked r s' ∧ p = s'.tally (t ++ asked)) ∧
    (∀ s r s', d.onAccess v s = some (r, s') ↔ ∃ asked, d.Resolves v s asked r s') ∧
    (∀ s asked r s' asked' r' s'', d.Resolves v s asked r s' → d.Resolves v s asked' r' s'' →
      asked' = asked ∧ r' = r ∧ s'' = s') ∧
    ∀ s before s₁ u, d.Declines v s before s₁ → s₁.world.inner v = some u →
      ∀ asked r s', d.Resolves v s asked r s' →
        asked = before ++
          if s₁.world.isCallable u then
            if s₁.world.isTemplate u then [.apply v none] else [.call v]
          else [] := by
  refine ⟨fun s t r p => ⟨exists_resolves_tallied, ?_⟩,
    fun s r s' => ⟨exists_resolves, fun ⟨asked, h⟩ => h.onAccess_eq⟩, ?_, ?_⟩
  · rintro ⟨asked, s', hresolves, rfl⟩
    exact hresolves.onAccess_tallied t
  · intro s asked r s' asked' r' s'' h h'
    have hsame := (h'.onAccess_tallied []).symm.trans (h.onAccess_tallied [])
    obtain ⟨hr, hs⟩ := Prod.mk.inj (Option.some.inj hsame)
    obtain ⟨hs, hasked⟩ := Session.tally_inj hs
    exact ⟨hasked, hr, hs⟩
  · intro s before s₁ u hbefore hinner asked r s' h
    exact h.asked_of_inner hbefore hinner

end Dispatch

/-- A wrapper that says it is a template and cannot be called, around a value that can be called,
is no template, and is a wrapper too. -/
def wrapperSession : Session Failure Unit :=
  ⟨{ objects := #[
      .host { typeName := "outer", template := true, inner := some (.object ⟨1⟩),
              call := some (.missingKey "x") },
      .host { typeName := "inner", callable := true, inner := some (.int 1) }],
     host := () }, {}⟩

/-- Whatever comes of it, it is called once after its hook; and its failure comes through. -/
theorem wrapperSession_resolves :
    (failingHost.dispatch 1).Declines (.object ⟨0⟩) wrapperSession [.hook ⟨0⟩] wrapperSession ∧
    wrapperSession.world.inner (.object ⟨0⟩) = some (.object ⟨1⟩) ∧
    (∀ asked r s', (failingHost.dispatch 1).Resolves (.object ⟨0⟩) wrapperSession asked r s' →
      asked = [.hook ⟨0⟩, .call (.object ⟨0⟩)]) ∧
    ∃ s', (failingHost.dispatch 1).Resolves (.object ⟨0⟩) wrapperSession
        [.hook ⟨0⟩, .call (.object ⟨0⟩)] (.error (.missingKey "x")) s' ∧
      (failingHost.dispatch 1).tallied.onAccess (.object ⟨0⟩) (wrapperSession.tally []) =
        some (.error (.missingKey "x"), s'.tally [.hook ⟨0⟩, .call (.object ⟨0⟩)]) := by
  obtain ⟨hcounts, -, -, hwrapper⟩ := (failingHost.dispatch 1).resolves_exactly (.object ⟨0⟩)
  have hdeclines : (failingHost.dispatch 1).Declines (.object ⟨0⟩) wrapperSession [.hook ⟨0⟩]
      wrapperSession := .declined rfl
  have hresolves : (failingHost.dispatch 1).Resolves (.object ⟨0⟩) wrapperSession _ _ _ :=
    .plain hdeclines rfl rfl rfl
  exact ⟨hdeclines, rfl, hwrapper _ _ _ (.object ⟨1⟩) hdeclines rfl, _, hresolves,
    (hcounts _ [] _ _).mpr ⟨_, _, hresolves, rfl⟩⟩

end LayeredScope
