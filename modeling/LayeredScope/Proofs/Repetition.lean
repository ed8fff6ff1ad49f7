import LayeredScope.Proofs.HostFree.Depth
import LayeredScope.Proofs.Termination

/-!
# Rendering without a host, again

Conditions are written into a mapping while a document is rendered, and every mapping is shared by
identity. Yet a render without a host disturbs nothing that was there: the mappings that it writes
are issued by itself. So the next render finds what the one before it found.

Nothing is asked of the limits of nesting here. A template without an effective limit may never come
to an end, so what is said is said of the runs that end, and from it that their repetitions do.

* `Session.Undisturbed` — the same stack, and a world in which everything is as it was.
* `Dispatch.Steady` — a way of rendering that depends on what is visible on a stack, and not on how
  far the world has grown.
* `Dispatch.Steady.again` — what ends once, ends in the same way in every world that
  has grown since.
* `Host.rendering_repeats` — **rendering without a host disturbs nothing, and may be repeated any
  number of times** with the same outcome.
-/

namespace LayeredScope

variable {κ σ α : Type} {s : Type}

/-- The same stack, and everything that was issued as it was. -/
def Session.Undisturbed (s s' : Session κ σ) : Prop :=
  s'.stack = s.stack ∧ s.world.Grows s'.world

/-! ## Repeated runs -/

/-- The outcomes of a run that is made so many times, one after the other. -/
def Run.times (x : Run s α) : Nat → Run s (List (Except Failure α))
  | 0 => pure []
  | n + 1 => do
    let r ← x.attempt
    let rest ← x.times n
    pure (r :: rest)

/-- A run that ends with `r` wherever `P` holds, and keeps `P`, ends with `r` each time. -/
theorem Run.times_eq {x : Run s α} {P : s → Prop} {r : Except Failure α}
    (h : ∀ a, P a → ∃ b, x a = some (r, b) ∧ P b) (n : Nat) {a : s} (ha : P a) :
    ∃ b, x.times n a = some (.ok (List.replicate n r), b) ∧ P b := by
  induction n generalizing a with
  | zero => exact ⟨a, rfl, ha⟩
  | succ n ih =>
    obtain ⟨b, hx, hb⟩ := h a ha
    obtain ⟨c, htimes, hc⟩ := ih hb
    refine ⟨c, ?_, hc⟩
    show (x.attempt >>= fun r => x.times n >>= fun rest => pure (r :: rest)) a = _
    rw [Run.bind_ok (Run.attempt_eq hx), Run.bind_ok htimes]
    rfl

/-- Whenever the run from `a` ends, nothing is disturbed, and with a little more fuel it can be made
any number of times: it ends each time with the same outcome, and nothing is disturbed then. -/
def Host.Repeats (h : Host κ σ) (undisturbed : s → s → Prop) (x : Dispatch κ σ → Run s α)
    (a : s) : Prop :=
  ∀ fuel r b, x (h.dispatch fuel) a = some (r, b) →
    undisturbed a b ∧
    ∀ n fuel', fuel + 2 ≤ fuel' → ∃ c,
      (x (h.dispatch fuel')).times n a = some (.ok (List.replicate n r), c) ∧ undisturbed a c

/-! ## Steady ways of rendering -/

/-- A way of rendering on the stack `st`: related calls render in a related way, and calls that
serve rendering compute the same in every world that has grown out of `base`. -/
structure Dispatch.Steady (base : World κ σ) (st : Stack κ)
    (x : Dispatch κ σ → Run (Session κ σ) α) : Prop where
  related : ∀ {R : StackRelation κ σ} {d e : Dispatch κ σ}, d.Related R e → R.Rel (x d) (x e)
  computes : ∀ {d : Dispatch κ σ} {room : Nat}, d.ServesAll base room →
    ∃ r, ∀ w, base.Grows w → (x d).Computes w.maps.size (room + 1) ⟨w, st⟩ r

namespace Dispatch.Steady

variable {base w : World κ σ} {st : Stack κ} {limit : Int64} {ρ : Scope}

/-- What a stack makes visible in a world, it makes visible in every world that has grown since. -/
theorem sees_grown (hs : Sees base ⟨base, st⟩ ρ) (hw : base.Grows w) : Sees base ⟨w, st⟩ ρ :=
  hs.grow hw rfl

/-- Some failure other than this outcome is no miss. -/
theorem exists_stop (r : Except Failure α) :
    ∃ stop : Failure, stop.isMiss = false ∧ r ≠ .error stop := by
  by_cases h : r = .error (.recursionLimit 0)
  · exact ⟨.recursionLimit 1, rfl, by rw [h]; nofun⟩
  · exact ⟨.recursionLimit 0, rfl, h⟩

/-- Calls that finish no less render no less. -/
theorem le {x : Dispatch κ σ → Run (Session κ σ) α} (hx : Steady base st x) {d e : Dispatch κ σ}
    (h : d.Le e) : (x d).Le (x e) := Run.le_iff_keeps.mpr (hx.related h.related)

/-- **What ends once, ends in the same way in every world that has grown since.** The run that ended
is also the run that is cut off at the depth of its fuel; that one computes the same in the other
world, and it has not failed with the failure of the cut, so it is a run without the cut. -/
theorem again {x : Dispatch κ σ → Run (Session κ σ) α} (hx : Steady base st x)
    (hbase : base.HostFree limit) {h : Host κ σ} {fuel : Nat} {r : Except Failure α}
    {s : Session κ σ} (hw : base.Grows w) (hrun : x (h.dispatch fuel) ⟨w, st⟩ = some (r, s)) :
    Session.Undisturbed ⟨w, st⟩ s ∧
    ∀ fuel', fuel + 2 ≤ fuel' → ∀ w', base.Grows w' → ∃ s',
      x (h.dispatch fuel') ⟨w', st⟩ = some (r, s') ∧ Session.Undisturbed ⟨w', st⟩ s' := by
  obtain ⟨stop, hstop, hne⟩ := exists_stop r
  obtain ⟨r₀, hcomputes⟩ := hx.computes (h.shallow_serves stop hbase fuel)
  obtain ⟨rfl, hrestored⟩ :=
    (hcomputes w hw).of_le (hx.le (h.dispatch_le_shallow stop fuel)) hrun
  refine ⟨⟨hrestored.stack, hrestored.world⟩, fun fuel' hfuel w' hw' => ?_⟩
  obtain ⟨s', hshallow, hrestored'⟩ := hcomputes w' hw'
  have hagain : x (h.dispatch (fuel + 2)) ⟨w', st⟩ = some (r, s') :=
    hx.related (h.shallow_leUnless hstop fuel).related _ _ _ hshallow hne
  exact ⟨s', hx.le (h.dispatch_le hfuel) _ _ hagain, hrestored'.stack, hrestored'.world⟩

/-- So it may be repeated. -/
theorem repeats {x : Dispatch κ σ → Run (Session κ σ) α} (hx : Steady base st x)
    (hbase : base.HostFree limit) (h : Host κ σ) :
    h.Repeats Session.Undisturbed x ⟨base, st⟩ := by
  intro fuel r s hrun
  obtain ⟨hundisturbed, hagain⟩ := hx.again hbase (.refl base) hrun
  refine ⟨hundisturbed, fun n fuel' hfuel => ?_⟩
  refine Run.times_eq (P := Session.Undisturbed ⟨base, st⟩) (fun a ha => ?_) n ⟨rfl, .refl base⟩
  obtain ⟨w', st'⟩ := a
  obtain ⟨rfl, hgrows⟩ := ha
  obtain ⟨s', hrun', hstack, hworld⟩ := hagain fuel' hfuel w' hgrows
  exact ⟨s', hrun', hstack, hgrows.trans hworld⟩

/-! ## Blocks, look-ups and templates -/

theorem renderAll (hbase : base.HostFree limit) (hs : Sees base ⟨base, st⟩ ρ)
    {blocks : List (Block κ)} (hblocks : Block.areHostFree blocks = true) :
    Steady base st (·.renderAll blocks) where
  related h := h.renderAll blocks
  computes hd := by
    obtain ⟨nested, hserves⟩ := hd st.level
    exact ⟨_, fun w hw => (hserves.renderOnto hbase (sees_grown hs hw) rfl "" blocks hblocks).mono
      (Nat.le_refl _) (Nat.le_succ _)⟩

theorem lookup (hs : Sees base ⟨base, st⟩ ρ) (key : String) :
    Steady base st (·.lookup key true) where
  related h := h.lookup key true
  computes hd := by
    obtain ⟨nested, hserves⟩ := hd st.level
    exact ⟨_, fun w hw => (hserves.lookup (sees_grown hs hw) rfl key).mono (Nat.le_refl _)
      (Nat.le_succ _)⟩

section

variable {t : Template κ} {client : Option Value} {keywords : Option MapId}
  (ht : t.HostFree limit base) (haccessor : st.accessor = none)
  (hclient : ∀ v ∈ client, base.isHostFree v = true)
  (hkeywords : ∀ m ∈ keywords, m.index < base.maps.size)

include ht haccessor hclient hkeywords

/-- The body of a template is refused, or its blocks are rendered one level deeper. -/
theorem renderContent (hbase : base.HostFree limit) (hs : Sees base ⟨base, st⟩ ρ) :
    Steady base st (·.renderContent t client keywords) where
  related h := h.renderContent t client keywords
  computes {d _} hd := by
    by_cases hrefused : t.nestingLimit < st.level
    · exact ⟨_, fun w hw => .of_eq (d.renderContent_refused (s := ⟨w, st⟩) hrefused _ _)⟩
    · obtain ⟨nested, hserves⟩ := hd (Stack.deeper st.level)
      refine ⟨Meaning.renderOnto base nested (t.bodyScope base st.reserved client keywords ρ) ""
        t.blocks, fun w hw => ?_⟩
      exact hserves.renderContent hbase (sees_grown hs hw) rfl ht hrefused (.inr haccessor)
        (World.areHostFree_clientTargets hclient) hkeywords

theorem renderNested (hbase : base.HostFree limit) (hs : Sees base ⟨base, st⟩ ρ) :
    Steady base st (·.renderNested t client keywords) where
  related h := h.renderNested t client keywords
  computes hd := by
    have hbody : Steady base (st.pushAll [.mapping t.globals])
        (·.renderContent t client keywords) :=
      renderContent ht haccessor hclient hkeywords hbase (hs.push_mapping hbase ht.globals)
    obtain ⟨r, hcomputes⟩ := hbody.computes hd
    exact ⟨r, fun w hw => .withLayers (hcomputes w hw)⟩

end

end Dispatch.Steady

/-- A template on its own is its body on a stack that is dropped. -/
theorem Host.render_repeats (h : Host κ σ) {limit : Int64} {base : World κ σ}
    (hbase : base.HostFree limit) {t : Template κ} (ht : t.HostFree limit base)
    {client : Option Value} {mapping : Option Layer} {keywords : Option MapId}
    (haccessor : t.settings.accessor = none) (hclient : ∀ v ∈ client, base.isHostFree v = true)
    (hmapping : ∀ layer ∈ mapping, base.layerIsHostFree layer = true)
    (hkeywords : ∀ m ∈ keywords, m.index < base.maps.size) :
    h.Repeats World.Grows (·.render t client mapping keywords) base := by
  have hnone : (t.ownStack client mapping).accessor = none :=
    (t.ownStack_accessor client mapping).trans haccessor
  have hsteady := Dispatch.Steady.renderContent ht hnone hclient hkeywords hbase
    (t.ownStack_sees hbase ht client hmapping)
  -- a run of the template from any world is the run of its body from there
  have hrender : ∀ {d : Dispatch κ σ} {w w' : World κ σ} {r : Except Failure String},
      d.render t client mapping keywords w = some (r, w') ↔
        ∃ s, d.renderContent t client keywords ⟨w, t.ownStack client mapping⟩ = some (r, s) ∧
          s.world = w' := by
    intro d w w' r
    rw [d.render_apply]
    cases d.renderContent t client keywords ⟨w, t.ownStack client mapping⟩ with
    | none => simp
    | some p => simp [Prod.ext_iff, and_assoc]
  intro fuel r w hrun
  obtain ⟨s, hbody, rfl⟩ := hrender.mp hrun
  obtain ⟨hundisturbed, hagain⟩ := hsteady.again hbase (.refl base) hbody
  refine ⟨hundisturbed.2, fun n fuel' hfuel => ?_⟩
  refine Run.times_eq (P := base.Grows) (fun w' hw' => ?_) n (.refl base)
  obtain ⟨s', hbody', hundisturbed'⟩ := hagain fuel' hfuel w' hw'
  exact ⟨s'.world, hrender.mpr ⟨s', hbody', rfl⟩, hw'.trans hundisturbed'.2⟩

/-! ## Main theorem -/

/-- **Rendering without a host disturbs nothing, and may be repeated.** Let blocks, a look-up, or a
template inside another render or on its own, end with a text or a failure. Every mapping that was
issued before has exactly the entries that it had, every object is the same, and the stack has the
same layers, level and fields. Made again any number of times it ends each time with the same
outcome. -/
theorem Host.rendering_repeats (h : Host κ σ) {limit : Int64} {w : World κ σ}
    (hw : w.HostFree limit) :
    (∀ st : Stack κ, (∀ layer ∈ st.layers, w.layerIsHostFree layer = true) →
      (∀ blocks, Block.areHostFree blocks = true →
        h.Repeats Session.Undisturbed (·.renderAll blocks) ⟨w, st⟩) ∧
      (∀ key, h.Repeats Session.Undisturbed (·.lookup key true) ⟨w, st⟩) ∧
      ∀ t client keywords, t.HostFree limit w → st.accessor = none →
        (∀ v ∈ client, w.isHostFree v = true) → (∀ m ∈ keywords, m.index < w.maps.size) →
        h.Repeats Session.Undisturbed (·.renderNested t client keywords) ⟨w, st⟩) ∧
    ∀ t client mapping keywords, t.HostFree limit w → t.settings.accessor = none →
      (∀ v ∈ client, w.isHostFree v = true) →
      (∀ layer ∈ mapping, w.layerIsHostFree layer = true) →
      (∀ m ∈ keywords, m.index < w.maps.size) →
      h.Repeats World.Grows (·.render t client mapping keywords) w := by
  refine ⟨fun st hst => ?_, ?_⟩
  · have hsees : Sees w ⟨w, st⟩ (w.visible w st.layers) := hw.sees st hst
    refine ⟨fun blocks hblocks => ?_, fun key => ?_,
      fun t client keywords ht haccessor hclient hkeywords => ?_⟩
    · exact (Dispatch.Steady.renderAll hw hsees hblocks).repeats hw h
    · exact (Dispatch.Steady.lookup hsees key).repeats hw h
    · exact (Dispatch.Steady.renderNested ht haccessor hclient hkeywords hw hsees).repeats hw h
  · intro t client mapping keywords ht haccessor hclient hmapping hkeywords
    exact h.render_repeats hw ht haccessor hclient hmapping hkeywords

/-- A choice on a name, the name itself, and then a name that is missing. -/
def signBlocks : List (Block Unit) :=
  [.choose [(.name "open", [.insert (.name "open")])] none, .insert (.name "closed")]

/-- A world with one mapping, which is pushed twice. -/
def signWorld : World Unit Unit where
  maps := #[.ofList [("open", .int 9)]]
  host := ()

theorem signWorld_hostFree : signWorld.HostFree 0 :=
  ⟨by decide, fun _ _ ht => nomatch ht⟩

/-- The choice binds its name in a mapping of its own, and then the render fails. The mapping on the
stack is as it was, and three renders more fail in the same way. -/
theorem signWorld_repeats :
    signWorld.HostFree 0 ∧
    ∃ s, (silentHost.dispatch 0).renderAll signBlocks
        ⟨signWorld, { layers := [.mapping ⟨0⟩, .mapping ⟨0⟩] }⟩ =
          some (.error (.missingKey "closed"), s) ∧
      s.stack.layers = [.mapping ⟨0⟩, .mapping ⟨0⟩] ∧
      s.world.entries ⟨0⟩ = signWorld.entries ⟨0⟩ ∧
      ∃ s', ((silentHost.dispatch 2).renderAll signBlocks).times 3
        ⟨signWorld, { layers := [.mapping ⟨0⟩, .mapping ⟨0⟩] }⟩ =
          some (.ok (List.replicate 3 (.error (.missingKey "closed"))), s') := by
  have hrepeats := (Host.rendering_repeats silentHost signWorld_hostFree).1
    { layers := [.mapping ⟨0⟩, .mapping ⟨0⟩] } (by decide)
  have hrun : ∃ s, (silentHost.dispatch 0).renderAll signBlocks
      ⟨signWorld, { layers := [.mapping ⟨0⟩, .mapping ⟨0⟩] }⟩ =
        some (.error (.missingKey "closed"), s) := ⟨_, rfl⟩
  obtain ⟨s, hs⟩ := hrun
  obtain ⟨⟨hstack, hworld⟩, hagain⟩ := hrepeats.1 signBlocks rfl 0 _ _ hs
  obtain ⟨s', htimes, -⟩ := hagain 3 2 (Nat.le_refl 2)
  exact ⟨signWorld_hostFree, s, hs, by rw [hstack], hworld.entries ⟨0⟩ (by decide), s', htimes⟩

end LayeredScope
