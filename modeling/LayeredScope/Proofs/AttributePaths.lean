import LayeredScope.Proofs.Invocations
import LayeredScope.Proofs.Views

/-!
# Three ways to an attribute

An attribute of a value is read through a view that is made for it, with a default to give way to,
or only to learn whether it can be read. Each of the three asks the accessor of the stack, and each
has rules of its own for what counts as a miss.

* `Dispatch.readFresh` — read an attribute through a new view.
* `Run.EndsIn` — how a run ends.
* `viewOutcome`, `orDefault`, `readable` — what each of the three makes of the answer of the
  accessor, and `Dispatch.readFresh_apply`, `Dispatch.readOr_apply`, `Dispatch.canRead_apply` — that
  it does, and nothing more.
* `Accessor.consultation` — the calls that come of asking an accessor once.
* `Dispatch.reads_agree` — **the three agree**, and each asks once.
-/

namespace LayeredScope

variable {κ σ α : Type}

/-- The run comes to an end from `a`, with `r`. -/
def Run.EndsIn {s : Type} (x : Run s α) (a : s) (r : Except Failure α) : Prop :=
  ∃ b, x a = some (r, b)

/-- A run ends in one way. -/
theorem Run.endsIn_iff {s : Type} {x : Run s α} {a b : s} {r r' : Except Failure α}
    (h : x a = some (r, b)) : x.EndsIn a r' ↔ r = r' := by
  simp [EndsIn, h]

/-- A refusal of an accessor. -/
def Failure.isRefusal : Failure → Bool
  | policyDenial _ _ => true
  | _ => false

/-! ## What is made of an answer -/

/-- A view finds the value or misses the attribute. -/
def viewOutcome : Except Failure Value → Except Failure (Option Value)
  | .ok v => .ok (some v)
  | .error e => Dispatch.missOr e

/-- An attribute that is absent gives way to the default. -/
def orDefault (default : Option Value) : Except Failure Value → Except Failure Value
  | .ok v => .ok v
  | .error e => if e.isAbsence then default.elim (.error e) .ok else .error e

/-- An attribute that is absent cannot be read, nor one that is refused, nor one behind a miss. -/
def readable : Except Failure Value → Except Failure Bool
  | .ok _ => .ok true
  | .error e => if e.isAbsence || e.isRefusal || e.isMiss then .ok false else .error e

theorem viewOutcome_found_iff {r : Except Failure Value} {v : Value} :
    viewOutcome r = .ok (some v) ↔ r = .ok v := by
  cases r with
  | ok u => simp [viewOutcome]
  | error e => simp [viewOutcome, Dispatch.missOr_ne_found]

theorem viewOutcome_missing_iff {r : Except Failure Value} :
    viewOutcome r = .ok none ↔ ∃ typeName name, r = .error (.attributeNotFound typeName name) := by
  cases r with
  | ok u => simp [viewOutcome]
  | error e => cases e <;> simp [viewOutcome, Dispatch.missOr, Failure.isAbsence]

theorem viewOutcome_failed_iff {r : Except Failure Value} {e : Failure} :
    viewOutcome r = .error e ↔ r = .error e ∧ e.isAbsence = false := by
  cases r with
  | ok u => simp [viewOutcome]
  | error cause =>
    cases habsent : cause.isAbsence
    · simp only [viewOutcome, Dispatch.missOr, habsent, Bool.false_eq_true, if_false,
        Except.error.injEq]
      constructor
      · rintro rfl
        exact ⟨rfl, habsent⟩
      · exact And.left
    · simp only [viewOutcome, Dispatch.missOr, habsent, if_true, Except.error.injEq]
      constructor
      · intro h
        cases h
      · rintro ⟨rfl, hpresent⟩
        simp [habsent] at hpresent

@[simp] theorem orDefault_none (r : Except Failure Value) : orDefault none r = r := by
  cases r <;> simp [orDefault]

/-- A default makes a difference only where the attribute is absent. -/
theorem orDefault_of_failed {e : Failure} (h : e.isAbsence = false) (default : Option Value) :
    orDefault default (.error e) = .error e := by
  simp [orDefault, h]

/-- Read an attribute through a view that is made for it. -/
def Dispatch.readFresh (d : Dispatch κ σ) (target : Value) (name : String) :
    Run (Session κ σ) (Option Value) := do
  let id ← viewOf target
  (d.viewGet id name).onWorld

/-- The world in which the new view asks for the attribute. -/
def Session.asking (s : Session κ σ) (target : Value) (name : String) : World κ σ :=
  (s.world.newView target s.stack.accessor s.stack.reserved).2.record
    (.asked ⟨s.world.objects.size⟩ name)

/-- The world after the answer, with what the view remembers of it. -/
def World.answering (w : World κ σ) (id : ObjectId) (name : String) :
    Except Failure Value → World κ σ
  | .ok v => ((w.record (.resolved id name v)).remember id name v).record
      (.answered id name (.ok (some v)))
  | .error e => w.record (.answered id name (Dispatch.missOr e))

variable {d : Dispatch κ σ} {s : Session κ σ} {st : Stack κ} {target : Value} {name : String}
  {r : Except Failure Value} {w w₁ : World κ σ}

namespace Dispatch

theorem readOr_apply (h : d.guardedRead st.accessor target name w = some (r, w₁))
    (default : Option Value) :
    d.readOr st target name default w = some (orDefault default r, w₁) := by
  unfold Dispatch.readOr
  rw [Run.bind_ok (Run.attempt_eq h)]
  cases r with
  | ok v => rfl
  | error e =>
    cases default with
    | none => simp [orDefault, Run.fail_apply]
    | some v => cases habsent : e.isAbsence <;> simp [orDefault, habsent]

theorem canRead_apply (h : d.guardedRead st.accessor target name w = some (r, w₁)) :
    d.canRead st target name w = some (readable r, w₁) := by
  unfold Dispatch.canRead
  rw [Run.bind_ok (Run.attempt_eq h)]
  cases r with
  | ok v => rfl
  | error e => cases e <;> rfl

/-- The new view is the one that was asked for, and it remembers nothing. -/
theorem newView_view? (s : Session κ σ) (target : Value) :
    (s.world.newView target s.stack.accessor s.stack.reserved).2.view? ⟨s.world.objects.size⟩ =
      some { target, accessor := s.stack.accessor, reserved := s.stack.reserved, memory := ∅ } := by
  simp [World.view?_eq_some, World.newView, World.object_newObject]

theorem readFresh_apply (hkind : s.stack.reserved.kindOf name = .visible)
    (h : d.guardedRead s.stack.accessor target name (s.asking target name) = some (r, w₁)) :
    d.readFresh target name s =
      some (viewOutcome r, ⟨w₁.answering ⟨s.world.objects.size⟩ name r, s.stack⟩) := by
  have hview := newView_view? s target
  have hid : (s.world.newView target s.stack.accessor s.stack.reserved).1 =
    ⟨s.world.objects.size⟩ := rfl
  have hget : d.viewGet ⟨s.world.objects.size⟩ name
      (s.world.newView target s.stack.accessor s.stack.reserved).2 =
        some (viewOutcome r, w₁.answering ⟨s.world.objects.size⟩ name r) := by
    cases r with
    | ok v => exact (ViewReading.resolved hview rfl hkind h).viewGet_eq
    | error e => exact (ViewReading.unresolved hview rfl hkind h).viewGet_eq
  unfold Dispatch.readFresh viewOf
  rw [Run.bind_ok (Run.modifyGet_apply _ s), Run.onWorld_apply]
  dsimp only
  rw [hid, hget]

end Dispatch

/-! ## How often the accessor is asked -/

/-- The calls that come of asking an accessor once: that of its code, or that of the target, if the
name is not refused. -/
def Accessor.consultation (accessor : Option (Accessor κ)) (target : Value) (name : String) :
    Tally κ :=
  match accessor with
  | none => [.readAttr target name]
  | some (.deny names) => if names.contains name then [] else [.readAttr target name]
  | some (.custom code) => [.access code target name]

namespace World

theorem denial_tally (w : World κ σ) (t : Tally κ) (target : Value) (name : String) :
    (w.tally t).denial target name = w.denial target name := by
  cases target <;> rfl

theorem remember_tally (w : World κ σ) (t : Tally κ) (id : ObjectId) (name : String) (v : Value) :
    (w.tally t).remember id name v = (w.remember id name v).tally t := by
  have hobject : (w.tally t).object id = w.object id := rfl
  unfold remember
  rw [hobject]
  cases w.object id <;> rfl

theorem answering_tally (w : World κ σ) (t : Tally κ) (id : ObjectId) (name : String)
    (r : Except Failure Value) :
    (w.tally t).answering id name r = (w.answering id name r).tally t := by
  cases r with
  | ok v =>
    have hremember := (w.record (.resolved id name v)).remember_tally t id name v
    exact congrArg (World.record · (.answered id name (.ok (some v)))) hremember
  | error e => rfl

end World

namespace Dispatch

theorem readAttr_tallied (h : d.readAttr target name w = some (r, w₁)) (t : Tally κ) :
    d.tallied.readAttr target name (w.tally t) =
      some (r, w₁.tally (t ++ [.readAttr target name])) := by
  show (d.readAttr target name w).map _ = _
  rw [h]
  rfl

/-- An accessor that is asked once is put these calls, and no other. -/
theorem guardedRead_tallied {accessor : Option (Accessor κ)}
    (h : d.guardedRead accessor target name w = some (r, w₁)) (t : Tally κ) :
    d.tallied.guardedRead accessor target name (w.tally t) =
      some (r, w₁.tally (t ++ Accessor.consultation accessor target name)) := by
  rcases accessor with _ | ⟨names⟩ | code
  · exact readAttr_tallied h t
  · cases hname : names.contains name with
    | true =>
      have hrefused : Accessor.Refuses name (some (Accessor.deny (κ := κ) names)) := hname
      rw [guardedRead_refused hrefused] at h ⊢
      cases h
      simp [Accessor.consultation, hname, World.denial_tally]
    | false =>
      rw [guardedRead_plain (.allowed hname)] at h ⊢
      simp only [Accessor.consultation, hname]
      exact readAttr_tallied h t
  · show (d.access code target name (w.record (.consulted target name))).map _ = _
    have haccess : d.access code target name (w.record (.consulted target name)) =
      some (r, w₁) := h
    rw [haccess]
    rfl

/-- A new view asks once. -/
theorem readFresh_tallied (hkind : s.stack.reserved.kindOf name = .visible)
    (h : d.guardedRead s.stack.accessor target name (s.asking target name) = some (r, w₁))
    (t : Tally κ) :
    d.tallied.readFresh target name (s.tally t) =
      some (viewOutcome r, Session.tally ⟨w₁.answering ⟨s.world.objects.size⟩ name r, s.stack⟩
        (t ++ Accessor.consultation s.stack.accessor target name)) := by
  have hread := guardedRead_tallied h t
  rw [readFresh_apply (s := s.tally t) hkind hread, World.answering_tally]
  rfl

/-! ## Main theorem -/

/-- **The three ways to an attribute agree.** Where the name is no reserved one, and the accessor
has the same answer for all of them: a new view finds a value exactly if the read without a default
ends with it, and then so does the read with any default, and the attribute can be read. The view
misses the attribute exactly if the read without a default fails because it is absent, and then the
read with a default ends with the default, and the attribute cannot be read. The view fails exactly
if the read fails the same way with a default and without one; and then the attribute cannot be read
if the failure is a refusal or the miss of a key, and otherwise the question fails as well. Each of
them asks the accessor once, and leaves the world as that leaves it, but for what the view
remembers. -/
theorem reads_agree (d : Dispatch κ σ) {s : Session κ σ} {target : Value} {name : String}
    (hkind : s.stack.reserved.kindOf name = .visible) {r : Except Failure Value}
    {w w₁ w₂ : World κ σ}
    (hread : d.guardedRead s.stack.accessor target name w = some (r, w₁))
    (hfresh : d.guardedRead s.stack.accessor target name (s.asking target name) = some (r, w₂)) :
    (∀ v, (d.readFresh target name).EndsIn s (.ok (some v)) ↔
      (d.readOr s.stack target name none).EndsIn w (.ok v)) ∧
    (∀ v, (d.readFresh target name).EndsIn s (.ok (some v)) →
      (∀ default, (d.readOr s.stack target name default).EndsIn w (.ok v)) ∧
      (d.canRead s.stack target name).EndsIn w (.ok true)) ∧
    ((d.readFresh target name).EndsIn s (.ok none) ↔ ∃ typeName absent,
      (d.readOr s.stack target name none).EndsIn w
        (.error (.attributeNotFound typeName absent))) ∧
    ((d.readFresh target name).EndsIn s (.ok none) →
      (∀ v, (d.readOr s.stack target name (some v)).EndsIn w (.ok v)) ∧
      (d.canRead s.stack target name).EndsIn w (.ok false)) ∧
    (∀ e v, (d.readFresh target name).EndsIn s (.error e) ↔
      (d.readOr s.stack target name none).EndsIn w (.error e) ∧
      (d.readOr s.stack target name (some v)).EndsIn w (.error e)) ∧
    (∀ e, (d.readFresh target name).EndsIn s (.error e) →
      (d.canRead s.stack target name).EndsIn w
        (if e.isRefusal || e.isMiss then .ok false else .error e)) ∧
    ∀ t, (∃ id, d.tallied.readFresh target name (s.tally t) =
        some (viewOutcome r, Session.tally ⟨w₂.answering id name r, s.stack⟩
          (t ++ Accessor.consultation s.stack.accessor target name))) ∧
      (∀ default, d.tallied.readOr s.stack target name default (w.tally t) =
        some (orDefault default r,
          w₁.tally (t ++ Accessor.consultation s.stack.accessor target name))) ∧
      d.tallied.canRead s.stack target name (w.tally t) =
        some (readable r, w₁.tally (t ++ Accessor.consultation s.stack.accessor target name)) := by
  have hview := readFresh_apply hkind hfresh
  have hor := readOr_apply hread
  have hcan := canRead_apply hread
  simp only [Run.endsIn_iff hview, Run.endsIn_iff (hor _), Run.endsIn_iff hcan]
  rw [orDefault_none]
  refine ⟨fun v => viewOutcome_found_iff, ?_, ?_, ?_, ?_, ?_, ?_⟩
  · intro v hfound
    obtain rfl := viewOutcome_found_iff.mp hfound
    exact ⟨fun default => rfl, rfl⟩
  · exact viewOutcome_missing_iff
  · intro hmissing
    obtain ⟨typeName, absent, rfl⟩ := viewOutcome_missing_iff.mp hmissing
    exact ⟨fun v => rfl, rfl⟩
  · intro e v
    rw [viewOutcome_failed_iff]
    constructor
    · rintro ⟨rfl, hpresent⟩
      exact ⟨rfl, orDefault_of_failed hpresent (some v)⟩
    · rintro ⟨rfl, hdefault⟩
      refine ⟨rfl, ?_⟩
      cases habsent : e.isAbsence with
      | false => rfl
      | true => simp [orDefault, habsent] at hdefault
  · intro e hfailed
    obtain ⟨rfl, hpresent⟩ := viewOutcome_failed_iff.mp hfailed
    simp only [readable, hpresent, Bool.false_or]
  · intro t
    have htallied := guardedRead_tallied hread t
    exact ⟨⟨_, readFresh_tallied hkind hfresh t⟩, readOr_apply htallied, canRead_apply htallied⟩

end Dispatch

/-- A host whose accessor refuses one name and has a text for every other. -/
def gatedHost : Host Unit Unit where
  readAttr _ _ := .answer .none
  readItem _ _ := .answer none
  call _ := .answer .none
  apply _ _ := .answer .none
  hook _ := .answer none
  access _ _ name :=
    if name = "secret" then .fail (.policyDenial name "no") else .answer (.str name)
  evaluate _ := .answer .none

/-- A stack with that accessor. -/
def gatedSession : Session Unit Unit where
  world.host := ()
  stack := { accessor := some (.custom ()) }

/-- The refusal is no miss for the view, gives way to no default, and is the answer no; the accessor
is asked once for each. -/
theorem gatedSession_reads_agree :
    ((gatedHost.dispatch 1).readFresh (.int 1) "secret").EndsIn gatedSession
      (.error (.policyDenial "secret" "no")) ∧
    ((gatedHost.dispatch 1).readOr gatedSession.stack (.int 1) "secret" (some .none)).EndsIn
      gatedSession.world (.error (.policyDenial "secret" "no")) ∧
    ((gatedHost.dispatch 1).canRead gatedSession.stack (.int 1) "secret").EndsIn
      gatedSession.world (.ok false) ∧
    ∃ s' : Session Unit Unit,
      (gatedHost.dispatch 1).tallied.readFresh (.int 1) "secret" (gatedSession.tally []) =
        some (.error (.policyDenial "secret" "no"), s'.tally [.access () (.int 1) "secret"]) := by
  have hread : ∃ w₁, (gatedHost.dispatch 1).guardedRead gatedSession.stack.accessor (.int 1)
      "secret" gatedSession.world = some (.error (.policyDenial "secret" "no"), w₁) := ⟨_, rfl⟩
  have hfresh : ∃ w₂, (gatedHost.dispatch 1).guardedRead gatedSession.stack.accessor (.int 1)
      "secret" (gatedSession.asking (.int 1) "secret") =
        some (.error (.policyDenial "secret" "no"), w₂) := ⟨_, rfl⟩
  obtain ⟨w₁, hread⟩ := hread
  obtain ⟨w₂, hfresh⟩ := hfresh
  obtain ⟨-, -, -, -, hfailed, hquestion, honce⟩ :=
    (gatedHost.dispatch 1).reads_agree (by decide) hread hfresh
  have hview : ((gatedHost.dispatch 1).readFresh (.int 1) "secret").EndsIn gatedSession
      (.error (.policyDenial "secret" "no")) := ⟨_, rfl⟩
  obtain ⟨-, hdefault⟩ := (hfailed _ .none).mp hview
  obtain ⟨⟨id, htallied⟩, -, -⟩ := honce []
  exact ⟨hview, hdefault, hquestion _ hview, _, htallied⟩

end LayeredScope
