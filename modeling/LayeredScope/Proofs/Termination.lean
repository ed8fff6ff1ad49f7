import LayeredScope.Proofs.Fuel
import LayeredScope.Proofs.HostFree.Templates

/-!
# Rendering without a host ends

Templates find each other by name, through whatever layers there are when they are invoked, so
nothing in the shape of a document says that rendering ends. The level does: it rises with every
body that is opened, and a body above the limit is refused.

* `bodyRoom` — how many bodies fit between a level and the limit.
* `Host.Ends` — with enough fuel a run ends, and the bodies that it opened fit in their room.
* `Host.rendering_ends` — **rendering without a host ends**, wherever it starts.
-/

namespace LayeredScope

variable {κ σ α s : Type}

/-- The number of bodies that can be open at once above a level: each is one level deeper than the
one before. -/
def bodyRoom (limit level : Int64) : Nat := (limit.toInt - level.toInt + 1).toNat

theorem lt_add_bodyRoom (limit level : Int64) :
    limit.toInt < level.toInt + bodyRoom limit level := by
  unfold bodyRoom
  omega

/-- One level deeper there is room for one body less. -/
theorem bodyRoom_deeper {limit level : Int64} (h : level ≤ limit) (hmax : limit < Int64.maxValue) :
    bodyRoom limit level = bodyRoom limit (Stack.deeper level) + 1 := by
  have hle := Int64.le_iff_toInt_le.mp h
  have hdeeper := toInt_deeper h hmax
  unfold bodyRoom
  omega

/-- With enough fuel the run from `a` ends, with one outcome and in one state. By then every body
that was opened has been closed, and at no moment were more than `room` of them open. -/
def Host.Ends (h : Host κ σ) (room : Nat) (x : Dispatch κ σ → Run s α) (journal : s → List Event)
    (a : s) : Prop :=
  ∃ r b n, (∀ fuel, n ≤ fuel → x (h.dispatch fuel) a = some (r, b)) ∧
    ∃ events, journal b = events ++ journal a ∧ Event.NestedWithin room events

/-- A run that computes with some fuel computes the same with more. -/
theorem Host.Ends.of_computes {h : Host κ σ} {x : Dispatch κ σ → Run (Session κ σ) α}
    (hx : ∀ {d e : Dispatch κ σ}, d.Le e → (x d).Le (x e)) {n cut room : Nat} {a : Session κ σ}
    {r : Except Failure α} (hc : (x (h.dispatch n)).Computes cut room a r) :
    h.Ends room x (fun s => s.world.journal) a := by
  obtain ⟨b, hrun, hrestored⟩ := hc
  exact ⟨r, b, n, fun fuel hfuel => hx (h.dispatch_le hfuel) a _ hrun, hrestored.journal⟩

theorem World.areHostFree_clientTargets {w : World κ σ} {client : Option Value}
    (h : ∀ v ∈ client, w.isHostFree v = true) : w.areHostFree (clientTargets client) = true := by
  cases client with
  | none => rfl
  | some v =>
    have hv := h v rfl
    cases v with
    | list items => exact hv
    | none | bool b | int n | float x | str s | map m | object id | function id =>
      simp only [clientTargets, World.areHostFree, hv, Bool.and_self]

/-! ## Bodies -/

section

variable (h : Host κ σ) {limit : Int64} (hlimit : limit < Int64.maxValue) {base : World κ σ}
  (hbase : base.HostFree limit)

include hlimit hbase

/-- Some fuel serves rendering at a level. -/
theorem Host.exists_serves (level : Int64) :
    ∃ n nested, (h.dispatch n).Serves base level (bodyRoom limit level) nested :=
  ⟨_, _, h.dispatch_serves hlimit hbase (bodyRoom limit level) (Nat.le_refl _)
    (lt_add_bodyRoom limit level)⟩

/-- A body ends: it is refused, or it is one level deeper and leaves room for one body less. -/
theorem Host.renderContent_computes {s : Session κ σ} {ρ : Scope} (hs : Sees base s ρ)
    {t : Template κ} (ht : t.HostFree limit base) {client : Option Value} {keywords : Option MapId}
    (haccessor : s.stack.accessor = none) (hclient : ∀ v ∈ client, base.isHostFree v = true)
    (hkeywords : ∀ m ∈ keywords, m.index < base.maps.size) :
    ∃ n r, ((h.dispatch n).renderContent t client keywords).Computes s.world.maps.size
      (bodyRoom limit s.stack.level) s r := by
  by_cases hrefused : t.nestingLimit < s.stack.level
  · exact ⟨0, _, .of_eq (Dispatch.renderContent_refused _ hrefused client keywords)⟩
  · have hle := Int64.le_trans (Int64.not_lt.mp hrefused) ht.nestingLimit
    obtain ⟨n, nested, hserves⟩ :=
      h.exists_serves hlimit hbase (Stack.deeper s.stack.level)
    rw [bodyRoom_deeper hle hlimit]
    exact ⟨n, _, hserves.renderContent hbase hs rfl ht hrefused (.inr haccessor)
      (World.areHostFree_clientTargets hclient) hkeywords⟩

theorem Host.renderNested_ends {s : Session κ σ} {ρ : Scope} (hs : Sees base s ρ)
    {t : Template κ} (ht : t.HostFree limit base) {client : Option Value} {keywords : Option MapId}
    (haccessor : s.stack.accessor = none) (hclient : ∀ v ∈ client, base.isHostFree v = true)
    (hkeywords : ∀ m ∈ keywords, m.index < base.maps.size) :
    h.Ends (bodyRoom limit s.stack.level) (·.renderNested t client keywords)
      (fun s => s.world.journal) s := by
  obtain ⟨n, r, hbody⟩ := h.renderContent_computes hlimit hbase
    (hs.push_mapping hbase ht.globals) ht haccessor hclient hkeywords
  exact .of_computes (fun hle => hle.renderNested t client keywords) (n := n) (.withLayers hbody)

theorem Host.renderAll_ends {s : Session κ σ} {ρ : Scope} (hs : Sees base s ρ)
    {blocks : List (Block κ)} (hblocks : Block.areHostFree blocks = true) :
    h.Ends (bodyRoom limit s.stack.level) (·.renderAll blocks) (fun s => s.world.journal) s := by
  obtain ⟨n, nested, hserves⟩ := h.exists_serves hlimit hbase s.stack.level
  exact .of_computes (fun hle => hle.renderAll blocks)
    (hserves.renderOnto hbase hs rfl "" blocks hblocks)

theorem Host.lookup_ends {s : Session κ σ} {ρ : Scope} (hs : Sees base s ρ) (key : String) :
    h.Ends (bodyRoom limit s.stack.level) (·.lookup key true) (fun s => s.world.journal) s := by
  obtain ⟨n, nested, hserves⟩ := h.exists_serves hlimit hbase s.stack.level
  exact .of_computes (fun hle => hle.lookup key true) (hserves.lookup hs rfl key)

end

/-! ## Templates on their own -/

/-- The stack on which the body of a template that is rendered on its own begins. -/
def Template.ownStack (t : Template κ) (client : Option Value) (mapping : Option Layer) : Stack κ :=
  introduce client (t.settings.build.pushAll (.mapping t.globals :: mapping.toList))

theorem Template.ownStack_eq (t : Template κ) (client : Option Value) (mapping : Option Layer) :
    ∃ fields, t.ownStack client mapping =
      { t.settings.build with
        layers := (.mapping t.globals :: mapping.toList).reverse
        fields } := by
  unfold ownStack
  rw [Stack.pushAll_eq, show t.settings.build.layers = [] from rfl, List.append_nil]
  cases client with
  | none => exact ⟨_, rfl⟩
  | some v => exact ⟨_, rfl⟩

theorem Template.ownStack_accessor (t : Template κ) (client : Option Value)
    (mapping : Option Layer) : (t.ownStack client mapping).accessor = t.settings.accessor := by
  obtain ⟨fields, hstack⟩ := t.ownStack_eq client mapping
  rw [hstack]
  rfl

theorem Template.ownStack_level (t : Template κ) (client : Option Value)
    (mapping : Option Layer) : (t.ownStack client mapping).level = t.settings.level := by
  obtain ⟨fields, hstack⟩ := t.ownStack_eq client mapping
  rw [hstack]
  rfl

/-- The layers of that stack are host-free if the mapping is. -/
theorem Template.ownStack_sees {limit : Int64} {base : World κ σ} (hbase : base.HostFree limit)
    {t : Template κ} (ht : t.HostFree limit base) (client : Option Value) {mapping : Option Layer}
    (hmapping : ∀ layer ∈ mapping, base.layerIsHostFree layer = true) :
    Sees base ⟨base, t.ownStack client mapping⟩
      (base.visible base (.mapping t.globals :: mapping.toList).reverse) := by
  have hlayers : ∀ layer ∈ (Layer.mapping t.globals :: mapping.toList).reverse,
      base.layerIsHostFree layer = true := by
    intro layer hlayer
    rcases List.mem_cons.mp (List.mem_reverse.mp hlayer) with rfl | hlayer
    · simpa [World.layerIsHostFree] using ht.globals
    · exact hmapping layer (Option.mem_toList.mp hlayer)
  obtain ⟨fields, hstack⟩ := t.ownStack_eq client mapping
  rw [hstack]
  exact hbase.sees { t.settings.build with fields } hlayers

/-- Rendering a template on its own is its body on a stack that is dropped afterwards. -/
theorem Dispatch.render_apply (d : Dispatch κ σ) (t : Template κ) (client : Option Value)
    (mapping : Option Layer) (keywords : Option MapId) (w : World κ σ) :
    d.render t client mapping keywords w =
      match d.renderContent t client keywords ⟨w, t.ownStack client mapping⟩ with
      | none => none
      | some (r, s) => some (r, s.world) := by
  unfold Dispatch.render onOwnStack Template.ownStack
  rw [guarded_apply, Run.bind_ok (enterAll_apply _ _), Run.bind_ok (Run.modify_apply _ _),
    Run.onSession_apply]
  dsimp only
  cases d.renderContent t client keywords
    ⟨w, introduce client (t.settings.build.pushAll (.mapping t.globals :: mapping.toList))⟩ with
  | none => rfl
  | some p => rfl

theorem Dispatch.render_refused (d : Dispatch κ σ) {t : Template κ}
    (h : t.nestingLimit < t.settings.level) (client : Option Value) (mapping : Option Layer)
    (keywords : Option MapId) (w : World κ σ) :
    d.render t client mapping keywords w =
      some (.error (.recursionLimit t.nestingLimit), w) := by
  rw [d.render_apply, d.renderContent_refused ?_ client keywords]
  rw [t.ownStack_level]
  exact h

theorem Host.render_ends (h : Host κ σ) {limit : Int64} (hlimit : limit < Int64.maxValue)
    {base : World κ σ} (hbase : base.HostFree limit) {t : Template κ} (ht : t.HostFree limit base)
    {client : Option Value} {mapping : Option Layer} {keywords : Option MapId}
    (haccessor : t.settings.accessor = none) (hclient : ∀ v ∈ client, base.isHostFree v = true)
    (hmapping : ∀ layer ∈ mapping, base.layerIsHostFree layer = true)
    (hkeywords : ∀ m ∈ keywords, m.index < base.maps.size) :
    h.Ends (bodyRoom limit t.settings.level) (·.render t client mapping keywords)
      (fun w => w.journal) base := by
  obtain ⟨n, r, hbody⟩ := h.renderContent_computes hlimit hbase
    (t.ownStack_sees hbase ht client hmapping) ht ((t.ownStack_accessor _ _).trans haccessor)
    hclient hkeywords
  rw [t.ownStack_level] at hbody
  obtain ⟨s, hrun, hrestored⟩ := hbody
  refine ⟨r, s.world, n, fun fuel hfuel => ?_, hrestored.journal⟩
  refine (h.dispatch_le hfuel).render t client mapping keywords base _ ?_
  rw [Dispatch.render_apply, hrun]

/-! ## Main theorem -/

/-- **Rendering without a host ends.** Let no template of a world without a host be nested deeper
than `limit`, which is not the greatest level. From any level, blocks, look-ups and templates,
inside another render and on their own, end with a text or a failure, and never have more bodies
open at once than fit between the level and the limit. For any calls whatever, a template whose own
limit is below the level is refused with that limit, and nothing is changed or noted. -/
theorem Host.rendering_ends (h : Host κ σ) {limit : Int64} (hlimit : limit < Int64.maxValue)
    {w : World κ σ} (hw : w.HostFree limit) :
    (∀ st : Stack κ, (∀ layer ∈ st.layers, w.layerIsHostFree layer = true) →
      (∀ blocks, Block.areHostFree blocks = true →
        h.Ends (bodyRoom limit st.level) (·.renderAll blocks) (fun s => s.world.journal) ⟨w, st⟩) ∧
      (∀ key,
        h.Ends (bodyRoom limit st.level) (·.lookup key true) (fun s => s.world.journal) ⟨w, st⟩) ∧
      ∀ t client keywords, t.HostFree limit w → st.accessor = none →
        (∀ v ∈ client, w.isHostFree v = true) → (∀ m ∈ keywords, m.index < w.maps.size) →
        h.Ends (bodyRoom limit st.level) (·.renderNested t client keywords)
          (fun s => s.world.journal) ⟨w, st⟩) ∧
    (∀ t client mapping keywords, t.HostFree limit w → t.settings.accessor = none →
      (∀ v ∈ client, w.isHostFree v = true) →
      (∀ layer ∈ mapping, w.layerIsHostFree layer = true) →
      (∀ m ∈ keywords, m.index < w.maps.size) →
      h.Ends (bodyRoom limit t.settings.level) (·.render t client mapping keywords)
        (fun w => w.journal) w) ∧
    (∀ (d : Dispatch κ σ) t client keywords,
      (∀ s, t.nestingLimit < s.stack.level →
        d.renderNested t client keywords s =
          some (.error (.recursionLimit t.nestingLimit), s)) ∧
      ∀ mapping w', t.nestingLimit < t.settings.level →
        d.render t client mapping keywords w' =
          some (.error (.recursionLimit t.nestingLimit), w')) ∧
    ∀ fuel id t client s, s.world.template? id = some t → t.nestingLimit < s.stack.level →
      (h.dispatch (fuel + 1)).apply (.object id) client s =
        some (.error (.recursionLimit t.nestingLimit), s) := by
  refine ⟨fun st hst => ?_, ?_, fun d t client keywords => ⟨?_, ?_⟩, ?_⟩
  · have hsees : Sees w ⟨w, st⟩ (w.visible w st.layers) := hw.sees st hst
    exact ⟨fun blocks hblocks => h.renderAll_ends hlimit hw hsees hblocks,
      fun key => h.lookup_ends hlimit hw hsees key,
      fun t client keywords ht haccessor hclient hkeywords =>
        h.renderNested_ends hlimit hw hsees ht haccessor hclient hkeywords⟩
  · intro t client mapping keywords ht haccessor hclient hmapping hkeywords
    exact h.render_ends hlimit hw ht haccessor hclient hmapping hkeywords
  · intro s hrefused
    exact d.renderNested_refused hrefused client keywords
  · intro mapping w' hrefused
    exact d.render_refused hrefused client mapping keywords w'
  · intro fuel id t client s ht hrefused
    exact h.apply_refused fuel ht hrefused client

/-- A host without anything to say. -/
def silentHost : Host Unit Unit where
  readAttr _ _ := .answer .none
  readItem _ _ := .answer none
  call _ := .answer .none
  apply _ _ := .answer .none
  hook _ := .answer none
  access _ _ _ := .answer .none
  evaluate _ := .answer .none

/-- A template that inserts itself. -/
def selfTemplate : Template Unit where
  name := "me"
  blocks := [.text "a", .insert (.name "me")]
  globals := ⟨0⟩
  vars := ⟨1⟩
  nestingLimit := 3

/-- Its world: the globals have it under its own name. -/
def selfWorld : World Unit Unit where
  maps := #[Entries.ofList [("me", .object ⟨0⟩)], ∅]
  objects := #[.template selfTemplate]
  host := ()

theorem selfWorld_hostFree : selfWorld.HostFree 3 := by
  have hself : selfTemplate.HostFree 3 selfWorld :=
    ⟨by decide, by decide, by decide, by decide⟩
  refine ⟨by decide, fun id t ht => ?_⟩
  obtain ⟨_ | i⟩ := id
  · cases ht
    exact hself
  · cases ht

/-- It is rendered four times, each inside the one before, and then refused. -/
theorem selfWorld_rendering_ends :
    (3 : Int64) < Int64.maxValue ∧ selfWorld.HostFree 3 ∧
      silentHost.Ends 4 (·.lookup "me" true) (fun s => s.world.journal)
        ⟨selfWorld, { layers := [.mapping ⟨0⟩] }⟩ ∧
      silentHost.Ends 4 (·.render selfTemplate none none none) (fun w => w.journal) selfWorld := by
  have hends := Host.rendering_ends silentHost (by decide) selfWorld_hostFree
  refine ⟨by decide, selfWorld_hostFree, ?_, ?_⟩
  · exact (hends.1 { layers := [.mapping ⟨0⟩] } (by decide)).2.1 "me"
  · exact hends.2.1 selfTemplate none none none
      ⟨by decide, by decide, by decide, by decide⟩ rfl nofun nofun nofun

example : ((silentHost.dispatch 8).render selfTemplate none none none selfWorld).map (·.1) =
    some (.error (.recursionLimit 3)) := by cbv

end LayeredScope
