import LayeredScope.Proofs.Termination
import Mathlib.Data.List.Permutation

/-!
# A template on its own

A template that is rendered on its own sets up its layers, its field and its guard apart from one
that is rendered inside another render. They meet in the body, and nothing that a host can look at
there tells them apart.

* `Stack.Introduces` — the field by which a stack knows a client.
* `onOwnStack_renderNested` — a nested render on a stack of one's own is its body on that stack.
* `Template.ownStack_introduces` — the stack of a render on its own is such a stack.
* `Host.rendering_alone` — **a render on its own is a nested render on a fresh stack**.
-/

namespace LayeredScope

variable {κ σ : Type}

/-- What becomes of a stack that is told its client: a list stands for its last item, an empty list
for no value, and without a client no field is set. -/
inductive Stack.Introduces (s : Stack κ) : Option Value → Stack κ → Prop
  | nobody : Introduces s none s
  | emptyList : Introduces s (some (.list [])) (s.bindField clientName .none)
  | lastItem (items : List Value) (v : Value) :
    Introduces s (some (.list (items ++ [v]))) (s.bindField clientName v)
  | value {v : Value} (notList : ∀ items, v ≠ .list items) :
    Introduces s (some v) (s.bindField clientName v)

/-! ## The field of the client -/

/-- Every client can be introduced. -/
theorem Stack.introduces_introduce (s : Stack κ) (client : Option Value) :
    s.Introduces client (introduce client s) := by
  cases client with
  | none => exact .nobody
  | some v =>
    cases v with
    | list items =>
      rcases List.eq_nil_or_concat items with rfl | ⟨init, last, hitems⟩
      · exact .emptyList
      · rw [List.concat_eq_append] at hitems
        subst hitems
        have hfield : introduce (some (.list (init ++ [last]))) s =
            s.bindField clientName last := by simp [introduce, clientValue]
        rw [hfield]
        exact .lastItem init last
    | none | bool b | int n | float x | str text | map m | object id | function id =>
      exact .value nofun

/-- There is one way to introduce a client. -/
theorem Stack.Introduces.eq {s S : Stack κ} {client : Option Value} (h : s.Introduces client S) :
    S = introduce client s := by
  cases h with
  | nobody => rfl
  | emptyList => rfl
  | lastItem items v => simp [introduce, clientValue]
  | @value v notList =>
    cases v with
    | list items => exact absurd rfl (notList items)
    | none | bool b | int n | float x | str text | map m | object id | function id => rfl

/-- The field has nothing to do with the layers. -/
theorem introduce_pushAll (client : Option Value) (s : Stack κ) (layers : List Layer) :
    introduce client (s.pushAll layers) = (introduce client s).pushAll layers := by
  rw [Stack.pushAll_eq, Stack.pushAll_eq]
  cases client with
  | none => rfl
  | some v => rfl

/-! ## The stack below the body -/

/-- The stack of a render on its own, with the client introduced first. -/
theorem Template.ownStack_introduces {t : Template κ} {client : Option Value} {S : Stack κ}
    (h : t.settings.build.Introduces client S) (mapping : Option Layer) :
    t.ownStack client mapping = S.pushAll (.mapping t.globals :: mapping.toList) := by
  rw [h.eq]
  exact introduce_pushAll client t.settings.build _

/-- A nested render pushes the globals, goes on with the body and pops them. -/
theorem Dispatch.renderNested_apply (d : Dispatch κ σ) (t : Template κ) (client : Option Value)
    (keywords : Option MapId) (s : Session κ σ) :
    d.renderNested t client keywords s =
      (d.renderContent t client keywords ⟨s.world, s.stack.push (.mapping t.globals)⟩).map fun p =>
        (p.1, ⟨p.2.world, Guard.close ⟨1, none⟩ p.2.stack⟩) := by
  have hpush : s.stack.pushAll [.mapping t.globals] = s.stack.push (.mapping t.globals) := rfl
  unfold renderNested
  rw [withLayers_apply, hpush]
  cases d.renderContent t client keywords ⟨s.world, s.stack.push (.mapping t.globals)⟩ with
  | none => rfl
  | some p => rfl

/-- On a stack of one's own, only the world of the body is left. -/
theorem onOwnStack_renderNested (d : Dispatch κ σ) (t : Template κ) (client : Option Value)
    (keywords : Option MapId) (S : Stack κ) (w : World κ σ) :
    onOwnStack S (d.renderNested t client keywords) w =
      match d.renderContent t client keywords ⟨w, S.push (.mapping t.globals)⟩ with
      | none => none
      | some (r, s) => some (r, s.world) := by
  unfold onOwnStack
  rw [d.renderNested_apply]
  cases d.renderContent t client keywords ⟨w, S.push (.mapping t.globals)⟩ with
  | none => rfl
  | some p => rfl

/-- The body of a template has no use for its globals: they lie below it already. -/
theorem Dispatch.renderContent_globals (d : Dispatch κ σ) (t : Template κ) (m : MapId) :
    d.renderContent { t with globals := m } = d.renderContent t := rfl

/-! ## Rendering and invoking -/

theorem Dispatch.render_none (d : Dispatch κ σ) {t : Template κ} {client : Option Value}
    {S : Stack κ} (h : t.settings.build.Introduces client S) (keywords : Option MapId)
    (w : World κ σ) :
    d.render t client none keywords w = onOwnStack S (d.renderNested t client keywords) w := by
  rw [d.render_apply, onOwnStack_renderNested, Template.ownStack_introduces h]
  rfl

/-- Over its own globals, the mapping takes the place of the globals. -/
theorem Dispatch.render_mapping (d : Dispatch κ σ) {t : Template κ} {client : Option Value}
    {S : Stack κ} (h : t.settings.build.Introduces client S) (m : MapId) (keywords : Option MapId)
    (w : World κ σ) :
    d.render t client (some (.mapping m)) keywords w =
      onOwnStack (S.push (.mapping t.globals))
        (d.renderNested { t with globals := m } client keywords) w := by
  rw [d.render_apply, onOwnStack_renderNested, Template.ownStack_introduces h,
    Dispatch.renderContent_globals]
  rfl

/-- Invoking a template without arguments is invoking it as a template on a fresh stack. -/
theorem Host.call_template (h : Host κ σ) (fuel : Nat) {w : World κ σ} {id : ObjectId}
    {t : Template κ} (ht : w.object id = .template t) :
    (h.dispatch fuel).call (.object id) w =
      onOwnStack t.settings.build ((h.dispatch fuel).apply (.object id) none) w := by
  cases fuel with
  | zero => rfl
  | succ fuel =>
    have hcall : (h.dispatch (fuel + 1)).call (.object id) w =
        ((h.dispatch fuel).render t none none none >>= fun text => pure (.str text)) w := by
      show Answer.call h (h.dispatch fuel) (.object id) w = _
      simp only [Answer.call, Run.bind_ok (Run.get_apply w), ht]
    have happly := h.apply_template fuel (s := ⟨w, t.settings.build⟩)
      (World.template?_eq_some.mpr ht) none
    have hrender := (h.dispatch fuel).render_none (.nobody (s := t.settings.build)) none w
    rw [hcall, Run.bind_apply, hrender]
    unfold onOwnStack
    rw [happly, Run.bind_apply]
    rcases (h.dispatch fuel).renderNested t none none ⟨w, t.settings.build⟩ with
      _ | ⟨_ | text, s⟩
    · rfl
    · rfl
    · rfl

/-! ## Main theorem -/

/-- **A render on its own is a nested render on a fresh stack.** Let `S` be the template's fresh
stack, told its client; there is just one such stack for every client. Whatever values, accessors
and code answer, the template on its own ends as it does inside another render on `S`, with the same
world behind it, be it a text, a failure or a refusal; with a mapping it ends as the template that
has the mapping for its globals does, on `S` with the template's own globals. Invoking the template
without arguments is invoking it as a template, without a client, on its fresh stack. -/
theorem Host.rendering_alone (h : Host κ σ) (t : Template κ) :
    (∀ client, ∃ S, t.settings.build.Introduces client S ∧
      ∀ S', t.settings.build.Introduces client S' → S' = S) ∧
    (∀ (d : Dispatch κ σ) client keywords S w, t.settings.build.Introduces client S →
      d.render t client none keywords w = onOwnStack S (d.renderNested t client keywords) w ∧
      ∀ m, d.render t client (some (.mapping m)) keywords w =
        onOwnStack (S.push (.mapping t.globals))
          (d.renderNested { t with globals := m } client keywords) w) ∧
    ∀ fuel w id, w.object id = .template t →
      (h.dispatch fuel).call (.object id) w =
        onOwnStack t.settings.build ((h.dispatch fuel).apply (.object id) none) w := by
  refine ⟨fun client => ⟨_, t.settings.build.introduces_introduce client, fun S' hS' => hS'.eq⟩,
    ?_, ?_⟩
  · intro d client keywords S w hS
    exact ⟨d.render_none hS keywords w, fun m => d.render_mapping hS m keywords w⟩
  · intro fuel w id ht
    exact h.call_template fuel ht

/-- A host whose code answers with the level, the number of layers and the client of its stack. -/
def watchfulHost : Host Unit Unit where
  readAttr _ _ := .answer .none
  readItem _ _ := .answer none
  call _ := .answer .none
  apply _ _ := .answer .none
  hook _ := .answer none
  access _ _ _ := .answer .none
  evaluate _ := .see fun f =>
    .list [.int f.stack.level, .int (Int64.ofNat f.stack.depth),
      (f.stack.fields.get? clientName).getD .none]

/-- A template that asks for them, on a stack that starts at level 5. -/
def watchedTemplate : Template Unit where
  name := "t"
  blocks := [.code ()]
  globals := ⟨0⟩
  vars := ⟨1⟩
  settings := { level := 5 }

def watchedWorld : World Unit Unit where
  maps := #[∅, ∅, ∅]
  objects := #[.template watchedTemplate]
  host := ()

/-- For a client of two items it sees the level of its body, a layer for each item and the last
item. -/
theorem watchedTemplate_rendering_alone :
    let client : Option Value := some (.list [.int 1, .str "x"])
    let S : Stack Unit := watchedTemplate.settings.build.bindField clientName (.str "x")
    let d := watchfulHost.dispatch 1
    watchedTemplate.settings.build.Introduces client S ∧
    watchedWorld.object ⟨0⟩ = .template watchedTemplate ∧
    (d.render watchedTemplate client none none watchedWorld).map (·.1) =
      some (.ok "[6, 3, x]") ∧
    (onOwnStack S (d.renderNested watchedTemplate client none) watchedWorld).map (·.1) =
      some (.ok "[6, 3, x]") ∧
    (onOwnStack (S.push (.mapping ⟨0⟩))
      (d.renderNested { watchedTemplate with globals := ⟨2⟩ } client none) watchedWorld).map (·.1) =
      some (.ok "[6, 4, x]") ∧
    (onOwnStack watchedTemplate.settings.build
      ((watchfulHost.dispatch 2).apply (.object ⟨0⟩) none) watchedWorld).map (·.1) =
      some (.ok (.str "[6, 1, none]")) := by
  intro client S d
  obtain ⟨-, hrender, hcall⟩ := Host.rendering_alone watchfulHost watchedTemplate
  have hS : watchedTemplate.settings.build.Introduces client S := .lastItem [.int 1] (.str "x")
  have hplain := hrender d client none S watchedWorld hS
  have halone : (d.render watchedTemplate client none none watchedWorld).map (·.1) =
      some (.ok "[6, 3, x]") := by cbv
  have hmapping : (d.render watchedTemplate client (some (.mapping ⟨2⟩)) none watchedWorld).map
      (·.1) = some (.ok "[6, 4, x]") := by cbv
  have hinvoked : ((watchfulHost.dispatch 2).call (.object ⟨0⟩) watchedWorld).map (·.1) =
      some (.ok (.str "[6, 1, none]")) := by cbv
  refine ⟨hS, rfl, halone, ?_, ?_, ?_⟩
  · rw [← hplain.1]
    exact halone
  · exact (congrArg _ (hplain.2 ⟨2⟩)).symm.trans hmapping
  · rw [← hcall 2 watchedWorld ⟨0⟩ rfl]
    exact hinvoked

end LayeredScope
