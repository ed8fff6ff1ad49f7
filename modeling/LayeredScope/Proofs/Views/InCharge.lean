import LayeredScope.Proofs.Enclosures
import LayeredScope.Proofs.Misses
import LayeredScope.Proofs.Preservation

/-!
# The accessor in charge

Whatever runs on a stack reads attributes through the accessor of that stack. It may be deep inside:
code in a branch of a choice in a template that was invoked by a look-up. That the accessor is the
same there is more than that it is the same at the end.

* `Dispatch.under` — the same calls, but that nothing ends that is called on a stack with another
  accessor.
* `Laws.under` — the law that the stack has a certain accessor; `Op.run_keeps_under` — operations
  keep it, and come to the same end under it, those apart that build a stack with settings of their
  own: these do so under the accessor of the settings.
* `Script.StaysUnder` — all along a run a script is at a stack with the accessor, and so is whatever
  its operations call. `Host.staysUnder` — **it is so in every run**.
* `Host.RunsInPlace` — what is called on a stack is a program that runs on this stack, and a bundle
  is read by a look-up on its own.
-/

namespace LayeredScope

variable {κ σ α : Type}

/-! ## Calls under an accessor -/

open Classical in
/-- The same run, but that it does not end on a stack with another accessor. -/
noncomputable def Run.under (accessor : Option (Accessor κ)) (x : Run (Session κ σ) α) :
    Run (Session κ σ) α :=
  fun s => if s.stack.accessor = accessor then x s else none

/-- The same calls, but that nothing ends that is called on a stack with another accessor. -/
noncomputable def Dispatch.under (d : Dispatch κ σ) (accessor : Option (Accessor κ)) :
    Dispatch κ σ :=
  { d with
    apply := fun v client => (d.apply v client).under accessor
    hook := fun id => (d.hook id).under accessor
    evaluate := fun code => (d.evaluate code).under accessor }

/-- The stack has this accessor. -/
def Laws.under (accessor : Option (Accessor κ)) : Laws κ σ where
  world := .free
  session := .preserving fun s => s.stack.accessor = accessor
  frame := .preserving fun f => f.stack.accessor = accessor
  onWorld _ hs := ⟨trivial, fun _ _ _ => ⟨hs, trivial⟩⟩
  onSession _ hf := ⟨hf, fun _ hs _ => ⟨hs, trivial⟩⟩
  guarded _ hs := ⟨hs, fun _ hf _ => ⟨hf, trivial⟩⟩
  leads_world _ := trivial
  enter _ _ hf := ⟨hf, trivial⟩
  deepen _ hf := ⟨hf, trivial⟩
  introduce client _ hf := by
    cases client with
    | none => exact ⟨hf, trivial⟩
    | some v => exact ⟨hf, trivial⟩

theorem Laws.under_library (accessor : Option (Accessor κ)) :
    (Laws.under accessor : Laws κ σ).Library where
  world := Law.free_library
  stack _ _ haccessor _ hf := ⟨haccessor.trans hf, trivial⟩
  spawn _ hs _ _ := hs

/-- A run that leaves the accessor of its stack alone keeps the law, and comes to the same end when
it may not end on any other stack. -/
theorem Run.under_keeps {accessor : Option (Accessor κ)} {x : Run (Session κ σ) α}
    (hx : ∀ s r s', x s = some (r, s') → s'.stack.accessor = s.stack.accessor) :
    x.Keeps (Laws.under accessor).session (x.under accessor) := by
  intro s r s' hs hrun
  have hsame : x.under accessor s = x s := if_pos hs
  exact ⟨hsame.trans hrun, (hx s r s' hrun).trans hs, trivial⟩

/-- So it is with the calls of all values. -/
theorem Host.dispatch_under (h : Host κ σ) (fuel : Nat) (accessor : Option (Accessor κ)) :
    (h.dispatch fuel).Keeps (Laws.under accessor) ((h.dispatch fuel).under accessor) := by
  have hcalls := h.dispatch_keeps Law.enclosures_library.everywhere
    (Law.everywhere_onAnyStack .enclosures) (P := fun _ => True) (fun _ _ => trivial) ""
    (Law.enclosures_reads h) fuel
  exact
    { readAttr := fun _ _ => .of_free _
      readItem := fun _ _ => .of_free _
      call := fun _ => .of_free _
      apply := fun v client => Run.under_keeps fun s r s' hx =>
        (hcalls.apply v client s r s' trivial hx).2.2.2.1
      hook := fun id => Run.under_keeps fun s r s' hx =>
        (hcalls.hook id s r s' trivial hx).2.2.2.1
      access := fun _ _ _ => .of_free _
      evaluate := fun code => Run.under_keeps fun s r s' hx =>
        (hcalls.evaluate code s r s' trivial hx).2.2.2.1 }

/-! ## Operations and scripts -/

/-- The accessor in charge of what an operation calls: that of the stack which it builds with
settings of its own, or else that of the stack at hand. -/
def Op.accessorIn (accessor : Option (Accessor κ)) (op : Op κ) : Option (Accessor κ) :=
  match op.ownStack? with
  | some stack => stack.accessor
  | none => accessor

/-- All along the run of the script from this frame, the stack has the accessor; and each operation
that ends comes to the same end when nothing may end that is called under another accessor. -/
def Script.StaysUnder (accessor : Option (Accessor κ)) (d : Dispatch κ σ) :
    Script κ σ α → Frame κ σ → Prop
  | .answer _, f => f.stack.accessor = accessor
  | .fail _, f => f.stack.accessor = accessor
  | .look next, f => (next f).StaysUnder accessor d f
  | .keep state next, f =>
    next.StaysUnder accessor d { f with world := { f.world with host := state } }
  | .ask op next, f =>
    f.stack.accessor = accessor ∧ ∀ r f', op.run d f = some (r, f') →
      op.run (d.under (op.accessorIn accessor)) f = some (r, f') ∧
        (next r).StaysUnder accessor d f'

section

variable {d : Dispatch κ σ} (hd : ∀ accessor, d.Keeps (Laws.under accessor) (d.under accessor))
  {accessor : Option (Accessor κ)}

include hd

/-- An operation leaves the accessor alone, and calls nothing under another. -/
theorem Op.run_keeps_under (op : Op κ) : (op.run d).Keeps (Laws.under accessor).frame
    (op.run (d.under (op.accessorIn accessor))) := by
  have hview (id : ObjectId) (key : String) :=
    (hd accessor).viewGet Law.free_library.rendering (fun w _ => Law.free_allows w _)
      (fun w _ _ _ => Law.free_allows w _) id key
  cases hown : op.ownStack? with
  | none =>
    have haccessor : op.accessorIn accessor = accessor := by
      unfold Op.accessorIn
      rw [hown]
    rw [haccessor]
    refine Op.run_keeps (Laws.under_library accessor) (hd accessor) hview op fun stack hstack => ?_
    rw [hown] at hstack
    cases hstack
  | some stack =>
    -- what runs on the stack of the operation keeps another law, but one that is free of the world
    cases op with
    | built settings body =>
      have hown (w : World κ σ) (_ : Law.free.Holds w) :
          (Laws.under settings.build.accessor).session.Holds ⟨w, settings.build⟩ := rfl
      have hbody := Run.Keeps.onOwnStack hown ((hd _).evaluate body)
      exact .onSession (.onWorld hbody)
    | render t client mapping keywords =>
      have hbody := (hd t.settings.build.accessor).render Law.free_library.rendering t client
        mapping keywords fun _ _ => rfl
      exact .onSession (.onWorld hbody)
    | _ => cases hown

theorem Script.staysUnder (x : Script κ σ α) {f : Frame κ σ} (hf : f.stack.accessor = accessor) :
    x.StaysUnder accessor d f := by
  induction x generalizing f with
  | answer v => exact hf
  | fail e => exact hf
  | look next ih => exact ih f hf
  | keep state next ih => exact ih hf
  | ask op next ih =>
    refine ⟨hf, fun r f' hop => ?_⟩
    obtain ⟨hsame, hf', -⟩ := Op.run_keeps_under hd op f r f' hf hop
    exact ⟨hsame, ih r hf'⟩

end

/-- **A run stays under the accessor of the stack on which it begins.** -/
theorem Host.staysUnder (h : Host κ σ) (fuel : Nat) (x : Script κ σ α) (f : Frame κ σ) :
    x.StaysUnder f.stack.accessor (h.dispatch fuel) f :=
  Script.staysUnder (h.dispatch_under fuel) x rfl

/-! ## From call to call -/

/-- The program of a value that is invoked on a stack: a template is rendered there. -/
def Host.applyScript (h : Host κ σ) (w : World κ σ) (v : Value) (client : Option Value) :
    Script κ σ Value :=
  match v with
  | .object id =>
    match w.object id with
    | .host { apply := some code, .. } => h.apply code client
    | .template t => do return .str (← Script.request (.renderNested t client none))
    | o => .fail (.typeMismatch "template" o.typeName)
  | v => .fail (.typeMismatch "template" (w.typeName v))

/-- The program of an object that answers for itself, if it does. -/
def Host.hookScript (h : Host κ σ) (w : World κ σ) (id : ObjectId) : Script κ σ (Option Value) :=
  match w.object id with
  | .host { hook := some code, .. } => h.hook code
  | _ => .answer none

/-- What is called on a stack is a program that runs on this stack, with the calls that are one
level further in; and a bundle is read by a look-up on its own stack, while that is lent. -/
structure Host.RunsInPlace (h : Host κ σ) (fuel : Nat) : Prop where
  apply : ∀ v client s, (h.dispatch (fuel + 1)).apply v client s =
    runScript (h.dispatch fuel) (h.applyScript s.world v client) s
  hook : ∀ id s, (h.dispatch (fuel + 1)).hook id s =
    runScript (h.dispatch fuel) (h.hookScript s.world id) s
  evaluate : ∀ code s, (h.dispatch (fuel + 1)).evaluate code s =
    runScript (h.dispatch fuel) (h.evaluate code) s
  bundle : ∀ bundle id stack name w, w.object bundle = .bundle (.enclosure id) →
    w.enclosures[id.index]? = some (.idle stack) →
    (h.dispatch (fuel + 1)).readAttr (.object bundle) name w =
      ((h.dispatch fuel).lookup name true ⟨w.setEnclosure id .reading, stack⟩).map fun p =>
        (Bundle.answer name p.1, p.2.world.setEnclosure id (.idle p.2.stack))

/-- The code of a script that asks for one operation on a session and goes on with its answer. -/
theorem runScript_request_map (d : Dispatch κ σ) (op : Op κ) (g : op.Reply → α)
    {x : Run (Session κ σ) op.Reply} (hop : op.run d = x.onSession) (s : Session κ σ) :
    runScript d (Script.request op >>= fun v => pure (g v)) s =
      (x >>= fun v => pure (g v)) s := by
  show guarded (Script.run d (Script.ask op _)) s = _
  rw [guarded_apply, Run.bind_apply]
  unfold Script.run
  rw [hop, Run.onSession_apply]
  rcases x s with _ | ⟨_ | _, s'⟩
  · rfl
  · exact congrArg (fun st => some (_, (⟨s'.world, st⟩ : Session κ σ))) (Guard.close_empty s'.stack)
  · exact congrArg (fun st => some (_, (⟨s'.world, st⟩ : Session κ σ))) (Guard.close_empty s'.stack)

theorem runScript_fail (d : Dispatch κ σ) (e : Failure) (s : Session κ σ) :
    runScript d (.fail e : Script κ σ α) s = some (.error e, s) :=
  congrArg (fun st => some (_, (⟨s.world, st⟩ : Session κ σ))) (Guard.close_empty s.stack)

theorem runScript_answer (d : Dispatch κ σ) (v : α) (s : Session κ σ) :
    runScript d (.answer v : Script κ σ α) s = some (.ok v, s) :=
  congrArg (fun st => some (_, (⟨s.world, st⟩ : Session κ σ))) (Guard.close_empty s.stack)

theorem Host.runsInPlace (h : Host κ σ) (fuel : Nat) : h.RunsInPlace fuel where
  apply v client s := by
    show Answer.apply h (h.dispatch fuel) v client s = _
    unfold Answer.apply Host.applyScript
    rw [Run.bind_ok (Run.get_apply s)]
    cases v with
    | object id =>
      dsimp only
      rcases s.world.object id with ⟨_, _, _, _, _ | code⟩ | _ | _ | t
      · exact (runScript_fail _ _ s).symm
      · rfl
      · exact (runScript_fail _ _ s).symm
      · exact (runScript_fail _ _ s).symm
      · exact (runScript_request_map _ (.renderNested t client none) Value.str rfl s).symm
    | _ => exact (runScript_fail _ _ s).symm
  hook id s := by
    show Answer.hook h (h.dispatch fuel) id s = _
    unfold Answer.hook Host.hookScript
    rw [Run.bind_ok (Run.get_apply s)]
    rcases s.world.object id with ⟨_, _, _, _, _, _ | code⟩ | _ | _ | _
    · exact (runScript_answer _ _ s).symm
    · rfl
    · exact (runScript_answer _ _ s).symm
    · exact (runScript_answer _ _ s).symm
    · exact (runScript_answer _ _ s).symm
  evaluate _ _ := rfl
  bundle bundle id stack name w hbundle hidle := by
    rw [← Dispatch.readEnclosure_eq]
    exact Answer.readAttr_idle h (h.dispatch fuel) hbundle hidle name

end LayeredScope
