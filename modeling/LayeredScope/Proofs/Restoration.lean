import LayeredScope.Proofs.Law.Programs
import LayeredScope.Proofs.Preservation

/-!
# Rendering restores the stack

Rendering pushes layers all the time: a mapping for each choice, and the globals, the views, the
variables and the keywords of each template. All of them are pushed under guards, so none of them
is left behind, however deep the nesting and whatever the failure.

* `Run.KeepsLayers` — the layers after a run are those before it, whatever the outcome. That is to
  keep a law (`Laws.layers`).
* `Dispatch.KeepsLayers`, `Host.KeepsLayers` — the same of the calls of a dispatch that get hold of
  a stack, and of the code of a host.
* `Host.dispatch_keepsLayers` — if the code of the host leaves the layers that it is handed alone,
  then so does every call of every value, templates included.
* `renderContent_level` — a template restores the level, whatever its host does.
-/

namespace LayeredScope

variable {κ σ α β : Type}

/-- The layers after the run are the layers before it, whatever the outcome. -/
def Run.KeepsLayers (x : Run (Session κ σ) α) : Prop :=
  ∀ s r s', x s = some (r, s') → s'.stack.layers = s.stack.layers

theorem Run.keepsLayers_iff_keeps {x : Run (Session κ σ) α} :
    x.KeepsLayers ↔ x.Keeps Laws.layers.session x :=
  ⟨fun h s r s' _ hx => ⟨hx, trivial, h s r s' hx⟩, fun h s r s' hx => (h s r s' trivial hx).2.2⟩

namespace Run.KeepsLayers

theorem get : KeepsLayers (Run.get : Run (Session κ σ) (Session κ σ)) :=
  keepsLayers_iff_keeps.mpr .get

theorem bind {x : Run (Session κ σ) α} {f : α → Run (Session κ σ) β} (hx : x.KeepsLayers)
    (hf : ∀ v, (f v).KeepsLayers) : (x >>= f).KeepsLayers :=
  keepsLayers_iff_keeps.mpr
    (.bind (keepsLayers_iff_keeps.mp hx) fun v => keepsLayers_iff_keeps.mp (hf v))

theorem onWorld (x : Run (World κ σ) α) : KeepsLayers x.onWorld :=
  keepsLayers_iff_keeps.mpr (.onWorld (.of_free x))

theorem withLayers {x : Run (Session κ σ) α} (hx : x.KeepsLayers) (layers : List Layer) :
    (LayeredScope.withLayers layers x).KeepsLayers :=
  keepsLayers_iff_keeps.mpr (.withLayers layers (keepsLayers_iff_keeps.mp hx))

end Run.KeepsLayers

/-! ## Everything that is built on a dispatch -/

/-- The calls that get hold of a stack leave its layers as they found them. -/
structure Dispatch.KeepsLayers (d : Dispatch κ σ) : Prop where
  apply : ∀ v client, (d.apply v client).KeepsLayers
  hook : ∀ id, (d.hook id).KeepsLayers
  evaluate : ∀ code, (d.evaluate code).KeepsLayers

namespace Dispatch.KeepsLayers

variable {d : Dispatch κ σ}

/-- Of the worlds nothing is asked. -/
theorem keeps (h : d.KeepsLayers) : d.Keeps Laws.layers d where
  readAttr _ _ := .of_free _
  readItem _ _ := .of_free _
  call _ := .of_free _
  apply v client := Run.keepsLayers_iff_keeps.mp (h.apply v client)
  hook id := Run.keepsLayers_iff_keeps.mp (h.hook id)
  access _ _ _ := .of_free _
  evaluate code := Run.keepsLayers_iff_keeps.mp (h.evaluate code)

theorem of_keeps (h : d.Keeps Laws.layers d) : d.KeepsLayers where
  apply v client := Run.keepsLayers_iff_keeps.mpr (h.apply v client)
  hook id := Run.keepsLayers_iff_keeps.mpr (h.hook id)
  evaluate code := Run.keepsLayers_iff_keeps.mpr (h.evaluate code)

variable (h : d.KeepsLayers)

include h

theorem related : d.Related (Laws.relation (L := Laws.layers) Law.free_library.rendering) d :=
  h.keeps.related _

theorem onAccess (v : Value) : (d.onAccess v).KeepsLayers :=
  Run.keepsLayers_iff_keeps.mpr (h.related.onAccess v)

theorem lookup (key : String) (invoked : Bool) : (d.lookup key invoked).KeepsLayers :=
  Run.keepsLayers_iff_keeps.mpr (h.related.lookup key invoked)

theorem valueOf (e : Expr κ) : (d.valueOf e).KeepsLayers :=
  Run.keepsLayers_iff_keeps.mpr (h.related.valueOf e)

theorem holds (kept : MapId) (condition : Expr κ) : (d.holds kept condition).KeepsLayers :=
  Run.keepsLayers_iff_keeps.mpr
    (h.related.holds (fun w _ _ => Law.free_allows w _) condition)

theorem renderOnto (out : String) (blocks : List (Block κ)) :
    (d.renderOnto out blocks).KeepsLayers :=
  Run.keepsLayers_iff_keeps.mpr (h.related.renderOnto out blocks)

/-- A choice pushes its own mapping under a guard; every other block pushes nothing itself. -/
theorem renderBlock (out : String) (block : Block κ) : (d.renderBlock out block).KeepsLayers :=
  Run.keepsLayers_iff_keeps.mpr (h.related.renderBlock out block)

theorem renderBranches (out : String) (kept : MapId) {otherwise : Run (Session κ σ) String}
    (ho : otherwise.KeepsLayers) (branches : List (Expr κ × List (Block κ))) :
    (d.renderBranches out kept otherwise branches).KeepsLayers :=
  Run.keepsLayers_iff_keeps.mpr (h.related.renderBranches out (fun w _ _ => Law.free_allows w _)
    (Run.keepsLayers_iff_keeps.mp ho) branches)

theorem renderOtherwise (out : String) (otherwise : Option (List (Block κ))) :
    (d.renderOtherwise out otherwise).KeepsLayers :=
  Run.keepsLayers_iff_keeps.mpr (h.related.renderOtherwise out otherwise)

theorem renderAll (blocks : List (Block κ)) : (d.renderAll blocks).KeepsLayers :=
  Run.keepsLayers_iff_keeps.mpr (h.related.renderAll blocks)

theorem renderNested (t : Template κ) (client : Option Value) (keywords : Option MapId) :
    (d.renderNested t client keywords).KeepsLayers :=
  Run.keepsLayers_iff_keeps.mpr (h.related.renderNested t client keywords)

end Dispatch.KeepsLayers

/-! ## Tying the knot -/

/-- Every piece of code that the host runs on a stack leaves the layers of that stack as it found
them: evaluators, templates of its own and hooks. -/
structure Host.KeepsLayers (h : Host κ σ) : Prop where
  evaluate : ∀ fuel code, (runScript (h.dispatch fuel) (h.evaluate code)).KeepsLayers
  apply : ∀ fuel code client, (runScript (h.dispatch fuel) (h.apply code client)).KeepsLayers
  hook : ∀ fuel code, (runScript (h.dispatch fuel) (h.hook code)).KeepsLayers

/-- **Then so does every call of every value**, by induction on how deep calls lead to calls: a
template is rendered by the calls one level further in. -/
theorem Host.dispatch_keepsLayers {h : Host κ σ} (hh : h.KeepsLayers) (fuel : Nat) :
    (h.dispatch fuel).KeepsLayers := by
  have hcode (fuel : Nat) : h.CodeKeeps Laws.layers h (h.dispatch fuel) (h.dispatch fuel) :=
    { readAttr := fun _ _ => .of_free _
      readItem := fun _ _ => .of_free _
      call := fun _ => .of_free _
      apply := fun code client => Run.keepsLayers_iff_keeps.mp (hh.apply fuel code client)
      hook := fun code => Run.keepsLayers_iff_keeps.mp (hh.hook fuel code)
      access := fun _ _ _ => .of_free _
      evaluate := fun code => Run.keepsLayers_iff_keeps.mp (hh.evaluate fuel code) }
  exact .of_keeps (Host.dispatch_keeps_of_code Law.free_library.rendering (fun _ _ _ => trivial)
    (fun _ _ => ⟨fun _ _ => .of_free _, fun _ _ => .of_free _⟩) (fun fuel _ => hcode fuel) fuel)

/-! ## The level

Here nothing is asked of the host: the guard of a template remembers the level by itself. -/

theorem enterAll_returnLevel (layers : List Layer) (level : Option Int64) :
    (enterAll layers : Run (Frame κ σ) Unit).Preserves (fun f => f.guard.returnLevel = level) := by
  induction layers with
  | nil => exact .pure ()
  | cons layer rest ih => exact .bind (.modify fun _ h => h) fun _ => ih

theorem enterViews_returnLevel (targets : List Value) (level : Option Int64) :
    (enterViews targets : Run (Frame κ σ) Unit).Preserves
      (fun f => f.guard.returnLevel = level) := by
  induction targets with
  | nil => exact .pure ()
  | cons target rest ih =>
    exact .bind (.onSession_guard (Q := fun g => g.returnLevel = level) _) fun id =>
      .bind (.modify fun _ h => h) fun _ => ih

/-- **The body of a template restores the level**, whatever it runs does to it. -/
theorem Dispatch.renderContent_level (d : Dispatch κ σ) (t : Template κ) (client : Option Value)
    (keywords : Option MapId) (level : Int64) :
    (d.renderContent t client keywords).Preserves (fun s => s.stack.level = level) := by
  refine .bind .get fun s₀ => ?_
  split
  · exact .fail _
  · intro s r s' hs h
    rw [guarded_apply, Run.bind_ok (deepen_apply _)] at h
    split at h
    · cases h
    · rename_i r' f hf
      cases h
      -- from the first descent on the guard knows the level to return to
      have hreturn : f.guard.returnLevel = some level := by
        refine Run.Preserves.bind (enterViews_returnLevel _ _) (fun _ => ?_) _ _ _ ?_ hf
        · exact .bind (.gets _) fun _ => .bind (enterAll_returnLevel _ _) fun _ =>
            .onSession_guard (Q := fun g => g.returnLevel = some level) _
        · show some s.stack.level = some level
          rw [hs]
      show f.guard.returnLevel.getD f.stack.level = level
      rw [hreturn]
      rfl

/-- Entering layers does not touch the level, so it is enough that what runs under them restores
it. -/
theorem withLayers_level {x : Run (Session κ σ) α} {level : Int64} (layers : List Layer)
    (hx : x.Preserves (fun s => s.stack.level = level)) :
    (withLayers layers x).Preserves (fun s => s.stack.level = level) := by
  intro s r s' hs h
  rw [withLayers_apply] at h
  split at h
  · cases h
  · rename_i r₁ s₁ hs₁
    cases h
    refine hx ⟨s.world, s.stack.pushAll layers⟩ _ s₁ ?_ hs₁
    show (s.stack.pushAll layers).level = level
    rw [Stack.pushAll_eq]
    exact hs

theorem Dispatch.renderNested_level (d : Dispatch κ σ) (t : Template κ) (client : Option Value)
    (keywords : Option MapId) (level : Int64) :
    (d.renderNested t client keywords).Preserves (fun s => s.stack.level = level) :=
  withLayers_level _ (d.renderContent_level t client keywords level)

/-! ## Main theorem -/

/-- **Rendering restores the stack.** If the code of the host leaves the layers that it is handed
alone, then blocks, templates, look-ups and everything that runs with layers entered leave exactly
the layers that they found, in the same order, whether they succeed or fail. A nested template
restores the level for any calls whatever. -/
theorem Host.rendering_restores (h : Host κ σ) :
    (h.KeepsLayers → ∀ fuel,
      (∀ blocks, ((h.dispatch fuel).renderAll blocks).KeepsLayers) ∧
      (∀ t client keywords, ((h.dispatch fuel).renderNested t client keywords).KeepsLayers) ∧
      (∀ v client, ((h.dispatch fuel).apply v client).KeepsLayers) ∧
      (∀ key invoked, ((h.dispatch fuel).lookup key invoked).KeepsLayers) ∧
      (∀ v, ((h.dispatch fuel).onAccess v).KeepsLayers) ∧
      (∀ (γ : Type) layers (x : Run (Session κ σ) γ),
        x.KeepsLayers → (withLayers layers x).KeepsLayers)) ∧
    ∀ (d : Dispatch κ σ) t client keywords s r s',
      d.renderNested t client keywords s = some (r, s') → s'.stack.level = s.stack.level := by
  refine ⟨fun hh fuel => ?_, ?_⟩
  · have hd := Host.dispatch_keepsLayers hh fuel
    exact ⟨hd.renderAll, hd.renderNested, hd.apply, hd.lookup, hd.onAccess,
      fun _ layers _ hx => hx.withLayers layers⟩
  · intro d t client keywords s r s' hs
    exact d.renderNested_level t client keywords s.stack.level s r s' rfl hs

/-- A host whose evaluators enter a layer, and then refuse. -/
def refusingHost : Host Unit Unit where
  readAttr _ _ := .answer .none
  readItem _ _ := .answer none
  call _ := .answer .none
  apply _ _ := .answer .none
  hook _ := .answer none
  access _ _ _ := .answer .none
  evaluate _ := .ask (.enter (.sealed .none)) fun _ => .fail (.policyDenial "x" "refused")

theorem refusingHost_keepsLayers : refusingHost.KeepsLayers := by
  refine ⟨fun _ _ s _ _ h => ?_, fun _ _ _ s _ _ h => ?_, fun _ _ s _ _ h => ?_⟩ <;>
  · cases h
    rfl

/-- The refusal inside two choices ends the rendering, and the two mappings of the choices are
gone. -/
theorem refusingHost_restores :
    refusingHost.KeepsLayers ∧
    ∃ s', (refusingHost.dispatch 2).renderAll
        [.choose [(.name "missing", [])] (some [.choose [] (some [.code ()])])]
        ⟨{ maps := #[∅], host := () }, { layers := [.mapping ⟨0⟩] }⟩ =
          some (.error (.policyDenial "x" "refused"), s') ∧
      s'.stack.layers = [.mapping ⟨0⟩] := by
  have hrestores := (Host.rendering_restores refusingHost).1 refusingHost_keepsLayers 2
  have hrun : ∃ s', (refusingHost.dispatch 2).renderAll
      [.choose [(.name "missing", [])] (some [.choose [] (some [.code ()])])]
      ⟨{ maps := #[∅], host := () }, { layers := [.mapping ⟨0⟩] }⟩ =
        some (.error (.policyDenial "x" "refused"), s') := ⟨_, rfl⟩
  obtain ⟨s', hs'⟩ := hrun
  exact ⟨refusingHost_keepsLayers, s', hs', hrestores.1 _ _ _ _ hs'⟩

end LayeredScope
