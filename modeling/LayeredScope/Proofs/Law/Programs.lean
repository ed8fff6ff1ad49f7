import LayeredScope.Proofs.Law.Library

/-!
# Programs keep laws

A program of a host can change the world only by asking for operations, so it keeps every law that
the library keeps.

* `Laws.Library` — the laws allow what the operations of the library do.
* `Op.run_keeps`, `Script.run_keeps` — operations and scripts keep the law.
* `Script.watched`, `Host.watched` — the same programs under watch: before each of its steps a
  program looks at the world, and leaves a mark in the journal where a condition does not hold.
* `Host.CodeKeeps`, `Host.answers_keeps` — if the code of the host keeps the law, over calls that
  do, then so do the calls that lead to these.
* `Host.dispatch_keeps` — every call keeps the law, at whatever depth calls lead to calls.
* `Script.Throughout` — a condition holds whenever a program is at a step, and at the end.
* `Law.throughout` — **a law holds throughout every script** that begins where it holds.
-/

namespace LayeredScope

variable {κ σ α β : Type}

/-! ## Scripts -/

open Classical in
/-- Go on; but where `P` does not hold, leave the mark in the journal first. -/
noncomputable def Script.insist (P : World κ σ → Prop) (mark : String) (x : Script κ σ α) :
    Script κ σ α :=
  .look fun frame =>
    if P frame.world then x else .ask (.guardedRead none .none mark) fun _ => x

/-- The program with a look at the world before each of its steps. -/
noncomputable def Script.watched (P : World κ σ → Prop) (mark : String) :
    Script κ σ α → Script κ σ α
  | .answer v => insist P mark (.answer v)
  | .fail e => insist P mark (.fail e)
  | .look next => insist P mark (.look fun frame => (next frame).watched P mark)
  | .keep state next => insist P mark (.keep state (next.watched P mark))
  | .ask op next => insist P mark (.ask op fun r => (next r).watched P mark)

/-- The host with all of its code under watch. -/
noncomputable def Host.watched (h : Host κ σ) (P : World κ σ → Prop) (mark : String) :
    Host κ σ where
  readAttr code name := (h.readAttr code name).watched P mark
  readItem code key := (h.readItem code key).watched P mark
  call code := (h.call code).watched P mark
  apply code client := (h.apply code client).watched P mark
  hook code := (h.hook code).watched P mark
  access code target name := (h.access code target name).watched P mark
  evaluate code := (h.evaluate code).watched P mark

/-- `P` holds when the script ends, and it holds whenever any program is at a step on the way there:
under watch the same run comes to the same end, journal and all, whatever the mark. -/
def Script.Throughout (h : Host κ σ) (fuel : Nat) (x : Script κ σ α) (f : Frame κ σ)
    (P : World κ σ → Prop) : Prop :=
  ∀ r f', x.run (h.dispatch fuel) f = some (r, f') →
    P f'.world ∧
    ∀ mark, (x.watched P mark).run ((h.watched P mark).dispatch fuel) f = some (r, f')

open Classical in
theorem Script.run_insist {P : World κ σ → Prop} (mark : String) (x : Script κ σ α)
    (d : Dispatch κ σ) {f : Frame κ σ} (h : P f.world) :
    (x.insist P mark).run d f = x.run d f := by
  have hgo : (if P f.world then x else .ask (.guardedRead none .none mark) fun _ => x) = x :=
    if_pos h
  exact congrArg (fun y => y.run d f) hgo

/-- A watch that finds no fault leaves no mark. -/
theorem Script.run_watched {P : World κ σ → Prop} (hP : ∀ w, P w) (mark : String)
    (x : Script κ σ α) (d : Dispatch κ σ) : (x.watched P mark).run d = x.run d := by
  have hunseen (y : Script κ σ α) : (y.insist P mark).run d = y.run d :=
    funext fun f => Script.run_insist mark y d (hP f.world)
  induction x with
  | answer v => exact hunseen _
  | fail e => exact hunseen _
  | look next ih =>
    rw [Script.watched, hunseen]
    exact funext fun f => congrFun (ih f) f
  | keep state next ih =>
    rw [Script.watched, hunseen]
    exact funext fun f => congrFun ih _
  | ask op next ih =>
    rw [Script.watched, hunseen]
    funext f
    unfold Script.run
    cases op.run d f with
    | none => rfl
    | some p => exact congrFun (ih p.1) p.2

/-! ## Operations and scripts -/

/-- The laws allow whatever the operations of the library do, but for the reads of views and
bundles, and what is run on a stack that an operation builds. -/
structure Laws.Library (L : Laws κ σ) : Prop where
  world : L.world.Library
  /-- Changes of the stack are free if they leave the accessor and the reserved names alone. -/
  stack : ∀ (f : Frame κ σ) (stack : Stack κ), stack.accessor = f.stack.accessor →
    stack.reserved = f.stack.reserved → L.frame.Allows f { f with stack }
  spawn : ∀ s : Session κ σ, L.session.Holds s →
    ∀ w, L.world.Holds w → L.session.Holds ⟨w, s.stack.spawn⟩

theorem Law.Library.everywhere {L : Law (World κ σ)} (hL : L.Library) : L.everywhere.Library where
  world := hL
  stack _ _ haccessor hreserved := Law.frame_allows haccessor hreserved
  spawn _ _ _ hw := hw

/-- The stack that an operation builds, with settings of its own. -/
def Op.ownStack? : Op κ → Option (Stack κ)
  | .built settings _ => some settings.build
  | .render t _ _ _ => some t.settings.build
  | _ => none

section

variable {L : Laws κ σ} (hL : L.Library)

include hL

/-- A change of the stack alone. -/
theorem Run.Keeps.updateStack {f : Stack κ → Except Failure (α × Stack κ)}
    (hf : ∀ st v st', f st = .ok (v, st') →
      st'.accessor = st.accessor ∧ st'.reserved = st.reserved) :
    Keeps L.frame (LayeredScope.updateStack f : Run (Frame κ σ) α)
      (LayeredScope.updateStack f) := by
  refine .update fun a v b hb => ?_
  cases hfa : f a.stack with
  | error cause => rw [hfa] at hb; cases hb
  | ok p =>
    rw [hfa] at hb
    cases hb
    obtain ⟨haccessor, hreserved⟩ := hf a.stack p.1 p.2 hfa
    exact hL.stack a p.2 haccessor hreserved

omit hL in
/-- A change of the world alone. -/
theorem Run.Keeps.updateWorld {f : World κ σ → α × World κ σ}
    (hf : ∀ w, L.world.Allows w (f w).2) :
    Keeps L.frame (LayeredScope.updateWorld f : Run (Frame κ σ) α) (LayeredScope.updateWorld f) :=
  .onSession (.onWorld (.modifyGet hf))

/-- Every operation keeps the law, if the law can hold on the stack that it builds. -/
theorem Op.run_keeps {d e : Dispatch κ σ} (h : d.Keeps L e)
    (hview : ∀ id key, (d.viewGet id key).Keeps L.world (e.viewGet id key)) (op : Op κ)
    (hown : ∀ stack, op.ownStack? = some stack →
      ∀ w, L.world.Holds w → L.session.Holds ⟨w, stack⟩) :
    (op.run d).Keeps L.frame (op.run e) := by
  have hlib := hL.world
  have hrender := hlib.rendering
  cases op with
  | newMap entries => exact .updateWorld fun w => hlib.elsewhere w _ rfl rfl rfl
  | insert m key value => exact .updateWorld fun w => hlib.elsewhere w _ rfl rfl rfl
  | erase m key => exact .updateWorld fun w => hlib.elsewhere w _ rfl rfl rfl
  | newHost o => exact .updateWorld fun w => hlib.newObject w _ (fun _ h => nomatch h)
  | newFunction f => exact .updateWorld fun w => hlib.elsewhere w _ rfl rfl rfl
  | newTemplate b => exact .updateWorld fun w => hlib.newTemplate w b
  | newView target => exact .updateWorld fun w => hlib.newObject w _ (by rintro v ⟨⟩; rfl)
  | readAttr v name => exact .onSession (.onWorld (h.readAttr v name))
  | guardedRead a v name => exact .onSession (.onWorld (h.guardedRead hrender a v name))
  | viewGet id key => exact .onSession (.onWorld (hview id key))
  | askLayer layer key => exact .onSession (.onWorld (h.askLayer layer key))
  | call v => exact .onSession (.onWorld (h.call v))
  | apply v client => exact .onSession (h.apply v client)
  | push layer =>
    exact .updateStack hL (f := fun s => .ok ((), s.push layer))
      (by rintro st v st' ⟨⟩; exact ⟨rfl, rfl⟩)
  | pop count =>
    refine .updateStack hL (f := (·.pop count)) fun st v st' hpop => ?_
    unfold Stack.pop at hpop
    split at hpop <;> cases hpop
    exact ⟨rfl, rfl⟩
  | popTop =>
    refine .updateStack hL (f := (·.popTop)) fun st v st' hpop => ?_
    unfold Stack.popTop at hpop
    split at hpop <;> cases hpop
    exact ⟨rfl, rfl⟩
  | setLevel level =>
    exact .updateStack hL (f := fun s => .ok ((), { s with level }))
      (by rintro st v st' ⟨⟩; exact ⟨rfl, rfl⟩)
  | writeField name value =>
    refine .update fun a v b hb => ?_
    cases hwritten : a.world.writeField a.stack name value with
    | error cause => rw [hwritten] at hb; cases hb
    | ok written =>
      rw [hwritten] at hb
      cases hb
      unfold World.writeField at hwritten
      split at hwritten
      · split at hwritten <;> cases hwritten
        exact hL.stack a _ rfl rfl
      · cases hwritten
        exact hL.stack a _ rfl rfl
  | clearField name =>
    refine .updateStack hL (f := fun s => return ((), ← s.clearField name))
      fun st v st' hclear => ?_
    cases hcleared : st.clearField name with
    | error cause => rw [hcleared] at hclear; cases hclear
    | ok cleared =>
      rw [hcleared] at hclear
      cases hclear
      unfold Stack.clearField at hcleared
      split at hcleared
      · cases hcleared
      · split at hcleared <;> cases hcleared
        exact ⟨rfl, rfl⟩
  | fetch key => exact .onSession (.bind .get fun s => .onWorld (h.fetch hrender s.stack key))
  | lookup key invoked => exact .onSession (h.lookup hrender key invoked)
  | contains key => exact .onSession (.bind .get fun s => .onWorld (h.contains hrender s.stack key))
  | onAccess v => exact .onSession (h.onAccess hrender v)
  | readOr v name default =>
    exact .onSession (.bind .get fun s => .onWorld (h.readOr hrender s.stack v name default))
  | canRead v name =>
    exact .onSession (.bind .get fun s => .onWorld (h.canRead hrender s.stack v name))
  | viewOf target => exact .onSession (Laws.viewOf hrender target)
  | bundle positional keywords => exact .onSession (Laws.bundle hlib positional keywords)
  | enter layer => exact .enter layer
  | deepen => exact .deepen
  | within layers body => exact .onSession (.withLayers layers (h.evaluate body))
  | spawned body =>
    exact .onSession (.bind_get fun s hs =>
      .onWorld (.onOwnStack (hL.spawn s hs) (h.evaluate body)))
  | built b body => exact .onSession (.onWorld (.onOwnStack (hown b.build rfl) (h.evaluate body)))
  | renderAll blocks => exact .onSession (h.renderAll hrender blocks)
  | renderNested t client keywords => exact .onSession (h.renderNested hrender t client keywords)
  | render t client mapping keywords =>
    exact .onSession (.onWorld (h.render hrender t client mapping keywords (hown _ rfl)))

end

/-- The law can hold on any stack. -/
def Laws.OnAnyStack (L : Laws κ σ) : Prop :=
  ∀ w stack, L.world.Holds w → L.session.Holds ⟨w, stack⟩

theorem Law.everywhere_onAnyStack (L : Law (World κ σ)) : L.everywhere.OnAnyStack :=
  fun _ _ hw => hw

section

variable {L : Laws κ σ} (hL : L.Library) (hany : L.OnAnyStack) {P : World κ σ → Prop}
  (hP : ∀ w, L.world.Holds w → P w) (mark : String) {d e : Dispatch κ σ}

include hL hany hP

/-- A program of a host keeps the law, and leaves no mark under watch. -/
theorem Script.run_keeps_watched (h : d.Keeps L e)
    (hview : ∀ id key, (d.viewGet id key).Keeps L.world (e.viewGet id key)) (x : Script κ σ α) :
    (x.run d).Keeps L.frame ((x.watched P mark).run e) := by
  have hunseen (f : Frame κ σ) (hf : L.frame.Holds f) : P f.world :=
    hP f.world (L.onWorld _ (L.onSession f hf).1).1
  induction x with
  | answer v =>
    intro f r f' hf hx
    rw [Script.watched, Script.run_insist mark _ e (hunseen f hf)]
    exact Run.Keeps.pure v f r f' hf hx
  | fail cause =>
    intro f r f' hf hx
    rw [Script.watched, Script.run_insist mark _ e (hunseen f hf)]
    exact Run.Keeps.fail cause f r f' hf hx
  | look next ih =>
    intro f r f' hf hx
    rw [Script.watched, Script.run_insist mark _ e (hunseen f hf)]
    exact ih f f r f' hf hx
  | keep state next ih =>
    intro f r f' hf hx
    rw [Script.watched, Script.run_insist mark _ e (hunseen f hf)]
    -- the state of the host is no concern of the law
    have hfree := hL.world.elsewhere f.world { f.world with host := state } rfl rfl rfl
    obtain ⟨hkept, hleads⟩ := Laws.allows_frame (Laws.allows_session hfree) hf
    obtain ⟨hy, hf', hlead⟩ := ih _ r f' hkept hx
    exact ⟨hy, hf', L.frame.trans hleads hlead⟩
  | ask op next ih =>
    intro f r f' hf hx
    rw [Script.watched, Script.run_insist mark _ e (hunseen f hf)]
    unfold Script.run at hx ⊢
    cases hop : op.run d f with
    | none => rw [hop] at hx; cases hx
    | some p =>
      obtain ⟨r₁, f₁⟩ := p
      obtain ⟨hy, hf₁, hlead⟩ :=
        Op.run_keeps hL h hview op (fun stack _ w hw => hany w stack hw) f r₁ f₁ hf hop
      rw [hop] at hx
      rw [hy]
      obtain ⟨hz, hf', hlead'⟩ := ih r₁ f₁ r f' hf₁ hx
      exact ⟨hz, hf', L.frame.trans hlead hlead'⟩

omit hP in
theorem Script.run_keeps (h : d.Keeps L e)
    (hview : ∀ id key, (d.viewGet id key).Keeps L.world (e.viewGet id key)) (x : Script κ σ α) :
    (x.run d).Keeps L.frame (x.run e) := by
  have hkeeps := x.run_keeps_watched hL hany (P := fun _ => True) (fun _ _ => trivial) "" h hview
  rwa [x.run_watched fun _ => trivial] at hkeeps

end

/-! ## Values that answer -/

/-- The code of one host finishes what the code of the other finishes, in the same way and as the
law says, when the calls that it leads to are answered by `d` and by `e`. -/
structure Host.CodeKeeps (L : Laws κ σ) (h h' : Host κ σ) (d e : Dispatch κ σ) : Prop where
  readAttr : ∀ code name,
    (runAlone d (h.readAttr code name)).Keeps L.world (runAlone e (h'.readAttr code name))
  readItem : ∀ code key,
    (runAlone d (h.readItem code key)).Keeps L.world (runAlone e (h'.readItem code key))
  call : ∀ code, (runAlone d (h.call code)).Keeps L.world (runAlone e (h'.call code))
  apply : ∀ code client,
    (runScript d (h.apply code client)).Keeps L.session (runScript e (h'.apply code client))
  hook : ∀ code, (runScript d (h.hook code)).Keeps L.session (runScript e (h'.hook code))
  access : ∀ code target name,
    (runAlone d (h.access code target name)).Keeps L.world (runAlone e (h'.access code target name))
  evaluate : ∀ code,
    (runScript d (h.evaluate code)).Keeps L.session (runScript e (h'.evaluate code))

section

variable {L : Laws κ σ} (hL : L.Library) (hany : L.OnAnyStack) {d e : Dispatch κ σ}
  (hcalls : d.Keeps L e) (hview : ∀ id key, (d.viewGet id key).Keeps L.world (e.viewGet id key))

include hL hany hcalls hview

/-- The code of every host keeps a law that the library keeps. -/
theorem Host.codeKeeps (h : Host κ σ) : h.CodeKeeps L h d e := by
  have honStack {α : Type} (x : Script κ σ α) : (runScript d x).Keeps L.session (runScript e x) :=
    .guarded (x.run_keeps hL hany hcalls hview)
  have halone {α : Type} (x : Script κ σ α) : (runAlone d x).Keeps L.world (runAlone e x) :=
    .onOwnStack (fun w => hany w {}) (honStack x)
  exact
    { readAttr := fun _ _ => halone _
      readItem := fun _ _ => halone _
      call := fun _ => halone _
      apply := fun _ _ => honStack _
      hook := fun _ => honStack _
      access := fun _ _ _ => halone _
      evaluate := fun _ => honStack _ }

theorem Host.codeKeeps_watched (h : Host κ σ) {P : World κ σ → Prop}
    (hP : ∀ w, L.world.Holds w → P w) (mark : String) : h.CodeKeeps L (h.watched P mark) d e := by
  have honStack {α : Type} (x : Script κ σ α) :
      (runScript d x).Keeps L.session (runScript e (x.watched P mark)) :=
    .guarded (x.run_keeps_watched hL hany hP mark hcalls hview)
  have halone {α : Type} (x : Script κ σ α) :
      (runAlone d x).Keeps L.world (runAlone e (x.watched P mark)) :=
    .onOwnStack (fun w => hany w {}) (honStack x)
  exact
    { readAttr := fun _ _ => halone _
      readItem := fun _ _ => halone _
      call := fun _ => halone _
      apply := fun _ _ => honStack _
      hook := fun _ => honStack _
      access := fun _ _ _ => halone _
      evaluate := fun _ => honStack _ }

end

/-- How all values answer, when `d` says how they answer the calls that this leads to. -/
def Host.answers (h : Host κ σ) (d : Dispatch κ σ) : Dispatch κ σ where
  readAttr := Answer.readAttr h d
  readItem := Answer.readItem h d
  call := Answer.call h d
  apply := Answer.apply h d
  hook := Answer.hook h d
  access := Answer.access h d
  evaluate := Answer.evaluate h d

theorem Host.dispatch_zero_keeps (L : Laws κ σ) (h : Host κ σ) (e : Dispatch κ σ) :
    (h.dispatch 0).Keeps L e where
  readAttr _ _ := .unfinished _
  readItem _ _ := .unfinished _
  call _ := .unfinished _
  apply _ _ := .unfinished _
  hook _ := .unfinished _
  access _ _ _ := .unfinished _
  evaluate _ := .unfinished _

section

variable {L : Laws κ σ} {h h' : Host κ σ} {d e : Dispatch κ σ} (hcode : h.CodeKeeps L h' d e)

include hcode

theorem Answer.readAttr_keeps (hreads : d.KeepsReads L e) (v : Value) (name : String) :
    (readAttr h d v name).Keeps L.world (readAttr h' e v name) := by
  refine .bind .get fun w => ?_
  split
  · split
    · exact hcode.readAttr _ _
    · exact hreads.readBundle _ _
    · exact .fail _
  · exact .fail _

theorem Answer.readItem_keeps
    (hview : ∀ id key, (d.viewGet id key).Keeps L.world (e.viewGet id key)) (id : ObjectId)
    (key : String) : (readItem h d id key).Keeps L.world (readItem h' e id key) := by
  refine .bind .get fun w => ?_
  split
  · exact hcode.readItem _ _
  · exact hview _ _
  · exact .fail _

theorem Answer.call_keeps (hL : L.world.Rendering) (hany : L.OnAnyStack) (hcalls : d.Keeps L e)
    (v : Value) : (call h d v).Keeps L.world (call h' e v) := by
  refine .bind .get fun w => ?_
  split
  · split
    · exact hcode.call _
    · exact .fail _
  · split
    · exact hcode.call _
    · exact .bind (hcalls.render hL _ _ _ _ fun w => hany w _) fun _ => .pure _
    · exact .fail _
  · exact .fail _

theorem Answer.apply_keeps (hL : L.world.Rendering) (hcalls : d.Keeps L e) (v : Value)
    (client : Option Value) : (apply h d v client).Keeps L.session (apply h' e v client) := by
  refine .bind .get fun s => ?_
  split
  · split
    · exact hcode.apply _ _
    · exact .bind (hcalls.renderNested hL _ _ _) fun _ => .pure _
    · exact .fail _
  · exact .fail _

theorem Answer.hook_keeps (id : ObjectId) : (hook h d id).Keeps L.session (hook h' e id) := by
  refine .bind .get fun s => ?_
  split
  · exact hcode.hook _
  · exact .pure none

/-- **Values answer as the law says, if the code of the host does**, and the calls that it leads
to. -/
theorem Host.answers_keeps (hL : L.world.Rendering) (hany : L.OnAnyStack) (hcalls : d.Keeps L e)
    (hreads : d.KeepsReads L e) : (h.answers d).Keeps L (h'.answers e) where
  readAttr := Answer.readAttr_keeps hcode hreads
  readItem := Answer.readItem_keeps hcode hreads.viewGet
  call := Answer.call_keeps hcode hL hany hcalls
  apply := Answer.apply_keeps hcode hL hcalls
  hook := Answer.hook_keeps hcode
  access := hcode.access
  evaluate := hcode.evaluate

end

/-- By induction on how deep calls lead to calls, then so do all calls. -/
theorem Host.dispatch_keeps_of_code {L : Laws κ σ} (hL : L.world.Rendering) (hany : L.OnAnyStack)
    {h h' : Host κ σ}
    (hreads : ∀ fuel, (h.dispatch fuel).Keeps L (h'.dispatch fuel) →
      (h.dispatch fuel).KeepsReads L (h'.dispatch fuel))
    (hcode : ∀ fuel, (h.dispatch fuel).Keeps L (h'.dispatch fuel) →
      h.CodeKeeps L h' (h.dispatch fuel) (h'.dispatch fuel))
    (fuel : Nat) : (h.dispatch fuel).Keeps L (h'.dispatch fuel) := by
  induction fuel with
  | zero => exact h.dispatch_zero_keeps L _
  | succ fuel ih => exact Host.answers_keeps (hcode fuel ih) hL hany ih (hreads fuel ih)

/-- **Every call keeps a law that the library keeps**, at whatever depth calls lead to calls, and no
program of the host leaves a mark under watch. -/
theorem Host.dispatch_keeps {L : Laws κ σ} (hL : L.Library) (hany : L.OnAnyStack)
    {P : World κ σ → Prop} (hP : ∀ w, L.world.Holds w → P w) (mark : String) (h : Host κ σ)
    (hreads : ∀ fuel e, (h.dispatch fuel).Keeps L e → (h.dispatch fuel).KeepsReads L e)
    (fuel : Nat) : (h.dispatch fuel).Keeps L ((h.watched P mark).dispatch fuel) :=
  Host.dispatch_keeps_of_code hL.world.rendering hany (fun fuel => hreads fuel _)
    (fun fuel hcalls => h.codeKeeps_watched hL hany hcalls (hreads fuel _ hcalls).viewGet hP mark)
    fuel

/-! ## Whole runs -/

section

variable {L : Law (World κ σ)} (hL : L.Library) {h : Host κ σ}
  (hreads : ∀ fuel e, (h.dispatch fuel).Keeps L.everywhere e →
    (h.dispatch fuel).KeepsReads L.everywhere e)

include hL hreads

/-- **A law holds throughout every script** that begins where it holds. -/
theorem Law.throughout {P : World κ σ → Prop} (hP : ∀ w, L.Holds w → P w) (fuel : Nat)
    (x : Script κ σ α) {f : Frame κ σ} (hf : L.Holds f.world) : x.Throughout h fuel f P := by
  have hany := L.everywhere_onAnyStack
  intro r f' hx
  have hrun := fun mark => by
    have hcalls := h.dispatch_keeps hL.everywhere hany hP mark hreads fuel
    exact x.run_keeps_watched hL.everywhere hany hP mark hcalls (hreads fuel _ hcalls).viewGet
      f r f' hf hx
  exact ⟨hP f'.world (hrun "").2.1, fun mark => (hrun mark).1⟩

/-- Where a script leads from where the law holds. -/
theorem Law.leads (fuel : Nat) {x : Script κ σ α} {f f' : Frame κ σ} {r : Except Failure α}
    (hf : L.Holds f.world) (hx : x.run (h.dispatch fuel) f = some (r, f')) :
    L.frame.Holds f' ∧ L.frame.Leads f f' := by
  have hany := L.everywhere_onAnyStack
  have hcalls := h.dispatch_keeps hL.everywhere hany (P := L.Holds) (fun _ hw => hw) "" hreads fuel
  exact (x.run_keeps_watched hL.everywhere hany (P := L.Holds) (fun _ hw => hw) "" hcalls
    (hreads fuel _ hcalls).viewGet f r f' hf hx).2

end

end LayeredScope
