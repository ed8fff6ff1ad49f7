import LayeredScope.Proofs.Searching
import LayeredScope.Proofs.Standalone
import LayeredScope.Proofs.Views

/-!
# What the body of a template sees

Two entry points and a part that they share push layers, some of them only at times: views if there
is a client, one for each item of a list; variables if there are any; keywords if they are given.
Here is what a body finds on its stack when it begins.

* `World.GainsViews` — fresh views of values, with the accessor and the reserved names of a stack.
* `Template.sources` — the layers of a body in the order in which they are asked.
* `Template.Begins` — the session in which a body begins.
* `Dispatch.renderContent_begins` — a body that is not refused begins in such a session.
* `Template.body_sources` — **the first source that does not miss answers**, inside another render
  and on its own.
-/

namespace LayeredScope

variable {κ σ : Type}

/-! ## Fresh views -/

/-- The identities that the next objects get, in order. -/
def World.nextObjects (w : World κ σ) (count : Nat) : List ObjectId :=
  (List.range' w.objects.size count).map ObjectId.mk

/-- `w'` is `w` with a fresh view of each value, in order. -/
structure World.GainsViews (accessor : Option (Accessor κ)) (reserved : Reserved)
    (targets : List Value) (w w' : World κ σ) : Prop where
  fresh : ∀ i target, targets[i]? = some target →
    w'.object ⟨w.objects.size + i⟩ = .view { target, accessor, reserved, memory := ∅ }
  kept : ∀ id, id.index < w.objects.size → w'.object id = w.object id
  count : w'.objects.size = w.objects.size + targets.length
  /-- Nothing else has changed. -/
  others : w' = { w with objects := w'.objects }

section

variable {accessor : Option (Accessor κ)} {reserved : Reserved} {targets : List Value}
  {w w' : World κ σ}

theorem World.GainsViews.nil : World.GainsViews accessor reserved [] w w :=
  ⟨nofun, fun _ _ => rfl, rfl, rfl⟩

/-- A view that is made before the others. -/
theorem World.GainsViews.cons {target : Value}
    (h : World.GainsViews accessor reserved targets (w.newView target accessor reserved).2 w') :
    World.GainsViews accessor reserved (target :: targets) w w' := by
  have hsize : (w.newView target accessor reserved).2.objects.size = w.objects.size + 1 :=
    Array.size_push _
  have hnew := World.object_newObject w (.view { target, accessor, reserved, memory := ∅ })
  refine ⟨fun i v hv => ?_, fun id hid => ?_, ?_, ?_⟩
  · cases i with
    | zero =>
      cases hv
      rw [h.kept ⟨w.objects.size + 0⟩ (by rw [hsize]; exact Nat.lt_succ_self _)]
      exact (hnew ⟨w.objects.size⟩).trans (if_pos rfl)
    | succ i =>
      have hfresh := h.fresh i v hv
      rwa [hsize, Nat.add_assoc, Nat.add_comm 1 i] at hfresh
  · rw [h.kept id (by omega)]
    exact (hnew id).trans (if_neg (by omega))
  · rw [h.count, hsize, List.length_cons]
    omega
  · rw [h.others]
    rfl

/-- A view was there before, or it is new and remembers nothing. -/
theorem World.GainsViews.of_view? (h : World.GainsViews accessor reserved targets w w')
    {id : ObjectId} {v : ObjectView κ} (hv : w'.view? id = some v) :
    w.view? id = some v ∨ ∃ target ∈ targets, v = { target, accessor, reserved, memory := ∅ } := by
  have hlt := World.lt_of_view? hv
  rw [World.view?_eq_some] at hv
  rcases Nat.lt_or_ge id.index w.objects.size with hold | hnew
  · rw [h.kept id hold] at hv
    exact .inl (World.view?_eq_some.mpr hv)
  · have hindex : id.index - w.objects.size < targets.length := by
      have hcount := h.count
      omega
    have hfresh := h.fresh _ _ (List.getElem?_eq_getElem hindex)
    rw [Nat.add_sub_cancel' hnew, hv] at hfresh
    exact .inr ⟨_, List.getElem_mem hindex, Object.view.inj hfresh⟩

/-- Making views leaves the mappings alone. -/
theorem World.GainsViews.entries (h : World.GainsViews accessor reserved targets w w') (m : MapId) :
    w'.entries m = w.entries m := by
  rw [h.others]
  rfl

/-- It makes no difference whether an event is noted before the views are made or after. -/
theorem World.GainsViews.record (h : World.GainsViews accessor reserved targets w w')
    (event : Event) :
    World.GainsViews accessor reserved targets (w.record event) (w'.record event) := by
  refine ⟨h.fresh, h.kept, h.count, ?_⟩
  rw [h.others]
  rfl

end

/-- Entering views makes them and pushes them, the newest on top. -/
theorem enterViews_gains (targets : List Value) (f : Frame κ σ) :
    ∃ w, enterViews targets f =
        some (.ok (), ⟨⟨w, f.stack.pushAll ((f.world.nextObjects targets.length).map .object)⟩,
          { f.guard with entered := f.guard.entered + targets.length }⟩) ∧
      World.GainsViews f.stack.accessor f.stack.reserved targets f.world w := by
  induction targets generalizing f with
  | nil => exact ⟨f.world, rfl, .nil⟩
  | cons target rest ih =>
    obtain ⟨w, hrest, hviews⟩ := ih (f.enterView target)
    refine ⟨w, ?_, .cons hviews⟩
    have hsize : (f.enterView target).world.objects.size = f.world.objects.size + 1 :=
      Array.size_push _
    have hcount : f.guard.entered + 1 + rest.length = f.guard.entered + (rest.length + 1) := by
      omega
    rw [enterViews_cons, hrest, World.nextObjects, hsize, World.nextObjects, List.length_cons,
      List.range'_succ, ← hcount]
    rfl

/-! ## The order of the sources -/

/-- The layers that a body finds, from the one that is asked first: the keywords, the variables
unless there are none, the views of the client from the last to the first, and what was there. -/
def Template.sources (t : Template κ) (w : World κ σ) (client : Option Value)
    (keywords : Option MapId) (below : List Layer) : List Layer :=
  (keywords.map Layer.mapping).toList ++
    (if (w.entries t.vars).isEmpty then [] else [.mapping t.vars]) ++
    ((w.nextObjects (clientTargets client).length).map Layer.object).reverse ++ below

/-- The session `b` in which a body begins, when `s` is the session before. -/
structure Template.Begins (t : Template κ) (client : Option Value) (keywords : Option MapId)
    (s b : Session κ σ) : Prop where
  stack : b.stack = { s.stack with
    layers := t.sources s.world client keywords s.stack.layers
    level := Stack.deeper s.stack.level }
  views : World.GainsViews s.stack.accessor s.stack.reserved (clientTargets client)
    (s.world.record (.opened (Stack.deeper s.stack.level))) b.world

/-- The mappings of a body are pushed in the order opposite to that in which they are asked. -/
theorem Template.sources_eq (t : Template κ) (w : World κ σ) (client : Option Value)
    (keywords : Option MapId) (below : List Layer) :
    t.sources w client keywords below =
      ((if (w.entries t.vars).isEmpty then [] else [Layer.mapping t.vars]) ++
        (keywords.map Layer.mapping).toList).reverse ++
      (((w.nextObjects (clientTargets client).length).map Layer.object).reverse ++ below) := by
  unfold sources
  rw [List.append_assoc]
  congr 1
  split <;> cases keywords <;> rfl

/-- What a body enters is what its sources say. -/
theorem Template.enterLayers_gains (t : Template κ) (client : Option Value)
    (keywords : Option MapId) (s : Session κ σ) :
    ∃ w g, t.enterLayers client keywords ⟨s, {}⟩ =
        some (.ok (), ⟨⟨w, { s.stack with
          layers := t.sources s.world client keywords s.stack.layers
          level := Stack.deeper s.stack.level }⟩, g⟩) ∧
      World.GainsViews s.stack.accessor s.stack.reserved (clientTargets client) s.world w := by
  obtain ⟨w, hviews, hgains⟩ := enterViews_gains (clientTargets client) (Frame.deepen ⟨s, {}⟩)
  refine ⟨w, ?guard, ?run, hgains⟩
  case run =>
    unfold Template.enterLayers
    rw [Run.bind_ok (deepen_apply _), Run.bind_ok hviews, Run.bind_ok (Run.gets_apply _ _)]
    dsimp only
    rw [hgains.entries, enterAll_apply, Stack.pushAll_eq, Stack.pushAll_eq, t.sources_eq]
    rfl

/-- A body that is not refused begins above what was there. When it has ended, nothing more is done
than to close its guard. -/
theorem Dispatch.renderContent_begins {t : Template κ} {s : Session κ σ}
    (h : ¬ t.nestingLimit < s.stack.level) (client : Option Value) (keywords : Option MapId) :
    ∃ b g, t.Begins client keywords s b ∧ ∀ d : Dispatch κ σ,
      d.renderContent t client keywords s =
        (d.renderAll t.blocks b).map fun p =>
          (p.1, ⟨p.2.world.record .closed, Guard.close g p.2.stack⟩) := by
  obtain ⟨w, g, henter, hgains⟩ := t.enterLayers_gains client keywords s
  refine ⟨⟨w.record (.opened (Stack.deeper s.stack.level)), _⟩, g, ⟨rfl, hgains.record _⟩,
    fun d => ?_⟩
  rw [d.renderContent_apply h, guarded_apply, Run.bind_ok henter, Run.onSession_apply]
  unfold inBody
  dsimp only
  cases d.renderAll t.blocks ⟨w.record (.opened (Stack.deeper s.stack.level)), _⟩ with
  | none => rfl
  | some p => rfl

/-- Inside another render the globals lie over what is there. -/
theorem Dispatch.renderNested_begins {t : Template κ} {s : Session κ σ}
    (h : ¬ t.nestingLimit < s.stack.level) (client : Option Value) (keywords : Option MapId) :
    ∃ (b : Session κ σ) (finish : Session κ σ → Session κ σ),
      t.Begins client keywords ⟨s.world, s.stack.push (.mapping t.globals)⟩ b ∧
      ∀ d : Dispatch κ σ, d.renderNested t client keywords s =
        (d.renderAll t.blocks b).map fun p => (p.1, finish p.2) := by
  obtain ⟨b, g, hbegins, hbody⟩ :=
    renderContent_begins (s := ⟨s.world, s.stack.push (.mapping t.globals)⟩) h client keywords
  refine ⟨b, fun s' => ⟨s'.world.record .closed, Guard.close ⟨1, none⟩ (Guard.close g s'.stack)⟩,
    hbegins, fun d => ?_⟩
  rw [d.renderNested_apply, hbody d]
  cases d.renderAll t.blocks b with
  | none => rfl
  | some p => rfl

/-- On its own the mapping lies over the globals, and nothing lies below them. -/
theorem Dispatch.render_begins {t : Template κ} (h : ¬ t.nestingLimit < t.settings.level)
    {client : Option Value} {S : Stack κ} (hS : t.settings.build.Introduces client S)
    (mapping : Option Layer) (keywords : Option MapId) (w : World κ σ) :
    ∃ b, t.Begins client keywords ⟨w, S.pushAll (.mapping t.globals :: mapping.toList)⟩ b ∧
      ∀ d : Dispatch κ σ, d.render t client mapping keywords w =
        (d.renderAll t.blocks b).map fun p => (p.1, p.2.world.record .closed) := by
  have hstack := Template.ownStack_introduces hS mapping
  obtain ⟨b, g, hbegins, hbody⟩ :=
    renderContent_begins (s := ⟨w, t.ownStack client mapping⟩) (by rwa [t.ownStack_level])
      client keywords
  refine ⟨b, hstack ▸ hbegins, fun d => ?_⟩
  rw [d.render_apply, hbody d]
  cases d.renderAll t.blocks b with
  | none => rfl
  | some p => rfl

/-! ## Main theorem -/

/-- What a session holds under a name is what the first of these layers says that does not miss. -/
def Session.AnswersFrom (b : Session κ σ) (layers : List Layer) : Prop :=
  ∀ (d : Dispatch κ σ) name r w', d.fetch b.stack name b.world = some (r, w') ↔
    d.Decides name layers b.world r w' ∨
      d.Misses name layers b.world w' ∧ r = .error (.missingKey name)

theorem Template.Begins.answersFrom {t : Template κ} {client : Option Value}
    {keywords : Option MapId} {s b : Session κ σ} (h : t.Begins client keywords s b) :
    b.AnswersFrom (t.sources s.world client keywords s.stack.layers) := by
  intro d name r w'
  have hlayers : b.stack.layers = t.sources s.world client keywords s.stack.layers := by
    rw [h.stack]
  rw [← hlayers]
  exact Dispatch.fetch_iff

/-- **The first source that does not miss answers.** A template that is not refused begins its body
one level deeper. A name stands there for what the first of these says that does not miss: the
keywords, the variables, the views of the client from the last item to the first, each with the
accessor and the reserved names of the stack; below them, inside another render, the globals and the
layers that were there, and on its own the mapping and the globals. If all of them miss, the name is
missing. Variables are not pushed if there are none; they would have missed. -/
theorem Template.body_sources (t : Template κ) (client : Option Value) (keywords : Option MapId) :
    (∀ s : Session κ σ, ¬ t.nestingLimit < s.stack.level →
      ∃ (b : Session κ σ) (finish : Session κ σ → Session κ σ),
      (∀ d : Dispatch κ σ, d.renderNested t client keywords s =
        (d.renderAll t.blocks b).map fun p => (p.1, finish p.2)) ∧
      t.Begins client keywords ⟨s.world, s.stack.push (.mapping t.globals)⟩ b ∧
      b.AnswersFrom
        (t.sources s.world client keywords (.mapping t.globals :: s.stack.layers))) ∧
    (∀ (w : World κ σ) mapping, ¬ t.nestingLimit < t.settings.level → ∃ S b,
      t.settings.build.Introduces client S ∧
      (∀ d : Dispatch κ σ, d.render t client mapping keywords w =
        (d.renderAll t.blocks b).map fun p => (p.1, p.2.world.record .closed)) ∧
      t.Begins client keywords ⟨w, S.pushAll (.mapping t.globals :: mapping.toList)⟩ b ∧
      b.AnswersFrom
        (t.sources w client keywords (mapping.toList ++ [.mapping t.globals]))) ∧
    ∀ (d : Dispatch κ σ) (w : World κ σ) name, (w.entries t.vars).isEmpty →
      d.askLayer (.mapping t.vars) name w = some (.ok none, w) := by
  refine ⟨fun s h => ?_, fun w mapping h => ?_, fun d w name h => ?_⟩
  · obtain ⟨b, finish, hbegins, hbody⟩ := Dispatch.renderNested_begins h client keywords
    exact ⟨b, finish, hbody, hbegins, hbegins.answersFrom⟩
  · have hS := t.settings.build.introduces_introduce client
    obtain ⟨b, hbegins, hbody⟩ := Dispatch.render_begins h hS mapping keywords w
    refine ⟨_, b, hS, hbody, hbegins, ?_⟩
    have hlayers : (t.ownStack client mapping).layers =
        mapping.toList ++ [.mapping t.globals] := by
      obtain ⟨fields, hstack⟩ := t.ownStack_eq client mapping
      rw [hstack]
      cases mapping <;> rfl
    rw [Template.ownStack_introduces hS] at hlayers
    have hanswers := hbegins.answersFrom
    rwa [hlayers] at hanswers
  · show some (Except.ok ((w.entries t.vars).get? name), w) = _
    rw [Entries.isEmpty_iff.mp h name]

/-- A template with a variable. -/
def variedTemplate : Template Unit where
  name := "t"
  blocks := []
  globals := ⟨0⟩
  vars := ⟨1⟩

/-- A stack with one layer. -/
def variedSession : Session Unit Unit where
  world := { maps := #[∅, .ofList [("a", .int 1)], ∅, ∅], host := () }
  stack := { layers := [.mapping ⟨3⟩] }

/-- The layers for a client of two items: with keywords inside another render, with a mapping on its
own; and variables that would have missed. -/
theorem variedTemplate_body_sources :
    let client : Option Value := some (.list [.int 1, .int 2])
    (¬ variedTemplate.nestingLimit < variedSession.stack.level ∧ ∃ b : Session Unit Unit,
      variedTemplate.Begins client (some ⟨2⟩) ⟨variedSession.world,
        variedSession.stack.push (.mapping ⟨0⟩)⟩ b ∧
      b.AnswersFrom [.mapping ⟨2⟩, .mapping ⟨1⟩, .object ⟨1⟩, .object ⟨0⟩, .mapping ⟨0⟩,
        .mapping ⟨3⟩]) ∧
    (¬ variedTemplate.nestingLimit < variedTemplate.settings.level ∧ ∃ b : Session Unit Unit,
      b.AnswersFrom [.mapping ⟨1⟩, .object ⟨1⟩, .object ⟨0⟩, .mapping ⟨3⟩, .mapping ⟨0⟩]) ∧
    (variedSession.world.entries ⟨0⟩).isEmpty ∧
    ((watchfulHost.dispatch 0).askLayer (.mapping ⟨0⟩) "a" variedSession.world).map (·.1) =
      some (.ok none) := by
  intro client
  have hlevel : ¬ variedTemplate.nestingLimit < variedSession.stack.level := by decide
  have hown : ¬ variedTemplate.nestingLimit < variedTemplate.settings.level := by decide
  have hempty : (variedSession.world.entries ⟨0⟩).isEmpty := by decide
  refine ⟨⟨hlevel, ?_⟩, ⟨hown, ?_⟩, hempty, ?_⟩
  · obtain ⟨b, _, -, hbegins, hanswers⟩ :=
      (Template.body_sources variedTemplate client (some ⟨2⟩)).1 variedSession hlevel
    exact ⟨b, hbegins, hanswers⟩
  · obtain ⟨_, b, -, -, -, hanswers⟩ :=
      (Template.body_sources variedTemplate client none).2.1 variedSession.world
        (some (.mapping ⟨3⟩)) hown
    exact ⟨b, hanswers⟩
  · rw [(Template.body_sources { variedTemplate with vars := ⟨0⟩ } client none).2.2
      (watchfulHost.dispatch 0) variedSession.world "a" hempty]
    rfl

end LayeredScope
