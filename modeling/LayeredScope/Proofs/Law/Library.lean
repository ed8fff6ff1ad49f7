import LayeredScope.Host.Answer
import LayeredScope.Proofs.Law
import LayeredScope.Proofs.Walk

/-!
# Laws that the library keeps

The library changes the world in few ways. A law that allows each of them is kept by everything that
the library does.

* `Law.Rendering`, `Law.Library` — the law allows what rendering does to the world, and what the
  whole library does, the reads of views and of bundles apart: these are left to the law
  (`Dispatch.KeepsReads`).
* `Dispatch.Keeps` — one record of calls finishes what the other finishes, as the law says; and then
  so does everything that is built on it. Reads and searches take one lemma each; from the look-up
  on `Laws.relation` says that rendering goes along with a law.
* `Dispatch.Keeps.viewGet`, `Dispatch.Keeps.readBundle` — laws that are kept by the reads of views
  and of bundles.
-/

namespace LayeredScope

variable {κ σ α β : Type}

/-- An event that is no part of the read of a view, and no read of a name that is refused. -/
def Event.Routine : Event → Prop
  | .asked .. | .resolved .. | .answered .. => False
  | .read _ name refused => name ∉ refused
  | _ => True

/-- One record of calls finishes what the other finishes, in the same way and as the law says. -/
structure Dispatch.Keeps (L : Laws κ σ) (d e : Dispatch κ σ) : Prop where
  readAttr : ∀ v name, (d.readAttr v name).Keeps L.world (e.readAttr v name)
  readItem : ∀ id key, (d.readItem id key).Keeps L.world (e.readItem id key)
  call : ∀ v, (d.call v).Keeps L.world (e.call v)
  apply : ∀ v client, (d.apply v client).Keeps L.session (e.apply v client)
  hook : ∀ id, (d.hook id).Keeps L.session (e.hook id)
  access : ∀ c v name, (d.access c v name).Keeps L.world (e.access c v name)
  evaluate : ∀ c, (d.evaluate c).Keeps L.session (e.evaluate c)

namespace Law

variable (L : Law (World κ σ))

/-- The mapping may be written. -/
def Writes (m : MapId) : Prop := ∀ w key value, L.Allows w (w.insert m key value)

/-- The law allows whatever rendering does to the world. -/
structure Rendering : Prop where
  record : ∀ (w : World κ σ) event, event.Routine → L.Allows w (w.record event)
  /-- A mapping that is issued for a choice may be written ever after. -/
  choice : ∀ w, L.Holds w →
    (L.Holds (w.newMap ∅).2 ∧ L.Leads w (w.newMap ∅).2) ∧ L.Writes (w.newMap ∅).1
  view : ∀ (w : World κ σ) target accessor reserved,
    L.Allows w (w.newView target accessor reserved).2

/-- The law allows whatever the library does to the world, but for the reads of views and bundles,
which change what they read. -/
structure Library : Prop where
  /-- Mappings, functions and the host's own state are free. -/
  elsewhere : ∀ w w' : World κ σ, w'.objects = w.objects → w'.enclosures = w.enclosures →
    w'.journal = w.journal → L.Allows w w'
  record : ∀ (w : World κ σ) event, event.Routine → L.Allows w (w.record event)
  /-- A view is issued with nothing in its memory. -/
  newObject : ∀ (w : World κ σ) o, (∀ v, o = .view v → v.memory = ∅) → L.Allows w (w.newObject o).2
  newEnclosure : ∀ (w : World κ σ) stack, L.Allows w (w.newEnclosure stack).2

variable {L}

theorem Library.rendering (hL : L.Library) : L.Rendering where
  record := hL.record
  choice w hw := ⟨hL.elsewhere w _ rfl rfl rfl hw, fun w' _ _ => hL.elsewhere w' _ rfl rfl rfl⟩
  view w target accessor reserved :=
    hL.newObject w (.view ⟨target, accessor, reserved, ∅⟩) (by rintro v ⟨⟩; rfl)

theorem free_library : (free : Law (World κ σ)).Library where
  elsewhere w w' _ _ _ := free_allows w w'
  record w _ _ := free_allows w _
  newObject w _ _ := free_allows w _
  newEnclosure w _ := free_allows w _

end Law

/-- The reads of views and bundles keep the law. -/
structure Dispatch.KeepsReads (L : Laws κ σ) (d e : Dispatch κ σ) : Prop where
  viewGet : ∀ id key, (d.viewGet id key).Keeps L.world (e.viewGet id key)
  readBundle : ∀ b name, (d.readBundle b name).Keeps L.world (e.readBundle b name)

/-! ## Scopes -/

namespace Laws

/-- A condition on a name. -/
theorem holds {L : Laws κ σ} {d e : Dispatch κ σ} {kept : MapId} {name : String}
    (hkept : L.world.Writes kept)
    (h : (d.lookup name true).Keeps L.session (e.lookup name true)) :
    (d.holds kept (.name name)).Keeps L.session (e.holds kept (.name name)) := by
  refine .bind (.attempt h) fun outcome => ?_
  cases outcome with
  | ok value =>
    exact .bind (.gets _) fun truthy =>
      .bind (.onWorld (.modify fun w => hkept w name value)) fun _ => .pure truthy
  | error cause =>
    dsimp only
    split
    · exact .pure false
    · exact .fail cause

variable {L : Laws κ σ} (hL : L.world.Rendering)

include hL

theorem note {event : Event} (h : event.Routine) :
    Run.Keeps L.world (LayeredScope.note event : Run (World κ σ) Unit) (LayeredScope.note event) :=
  .modify fun w => hL.record w event h

theorem viewOf (target : Value) :
    Run.Keeps L.session (LayeredScope.viewOf target : Run (Session κ σ) ObjectId)
      (LayeredScope.viewOf target) :=
  .modifyGet fun s =>
    allows_session (hL.view s.world target s.stack.accessor s.stack.reserved)

theorem enterViews (targets : List Value) :
    Run.Keeps L.frame (LayeredScope.enterViews targets : Run (Frame κ σ) Unit)
      (LayeredScope.enterViews targets) := by
  induction targets with
  | nil => exact .pure ()
  | cons target rest ih =>
    exact .bind (.onSession (viewOf hL target)) fun id => .bind (.enter _) fun _ => ih

theorem enterLayers (t : Template κ) (client : Option Value) (keywords : Option MapId) :
    Run.Keeps L.frame (t.enterLayers client keywords : Run (Frame κ σ) Unit)
      (t.enterLayers client keywords) :=
  .bind .deepen fun _ => .bind (enterViews hL _) fun _ => .bind (.gets _) fun _ => .enterAll _

theorem inBody {x y : Run (Session κ σ) α} (h : x.Keeps L.session y) :
    (LayeredScope.inBody x).Keeps L.session (LayeredScope.inBody y) := by
  intro s r s' hs hx
  unfold LayeredScope.inBody at hx ⊢
  obtain ⟨hopened, hleads⟩ :=
    allows_session (hL.record s.world (.opened s.stack.level) trivial) hs
  cases hbody : x { s with world := s.world.record (.opened s.stack.level) } with
  | none => rw [hbody] at hx; cases hx
  | some p =>
    obtain ⟨r₁, s₁⟩ := p
    obtain ⟨hy, hs₁, hlead⟩ := h _ r₁ s₁ hopened hbody
    obtain ⟨hclosed, hends⟩ := allows_session (hL.record s₁.world .closed trivial) hs₁
    rw [hbody] at hx
    cases hx
    rw [hy]
    exact ⟨rfl, hclosed, L.session.trans hleads (L.session.trans hlead hends)⟩

theorem inChoice {x y : MapId → Run (Session κ σ) α}
    (h : ∀ kept, L.world.Writes kept → (x kept).Keeps L.session (y kept)) :
    (LayeredScope.inChoice x).Keeps L.session (LayeredScope.inChoice y) := by
  intro s r s' hs hx
  obtain ⟨hissued, hwrites⟩ := hL.choice s.world (L.onWorld s hs).1
  obtain ⟨hs₁, hleads⟩ := allows_session (fun _ => hissued) hs
  have hscope : Run.Keeps L.session (withLayers [.mapping (s.world.newMap ∅).1] _)
      (withLayers [.mapping (s.world.newMap ∅).1] _) := .withLayers _ (h _ hwrites)
  obtain ⟨hy, hs', hlead⟩ := hscope ⟨(s.world.newMap ∅).2, s.stack⟩ r s' hs₁ hx
  exact ⟨hy, hs', L.session.trans hleads hlead⟩

/-- Rendering goes along with the law. -/
def relation : StackRelation κ σ where
  Rel x y := x.Keeps L.session y
  Kept := L.world.Writes
  pure := .pure
  fail := .fail
  gets := .gets
  bind := .bind
  applied _ := .onWorld (note hL trivial)
  called _ := .onWorld (note hL trivial)
  tested := holds
  choice := inChoice hL
  body t client keywords _ _ hxy :=
    .guarded (.bind (enterLayers hL t client keywords) fun _ => .onSession (inBody hL hxy))
  layers _ _ _ hxy := .withLayers _ hxy

end Laws

namespace Dispatch.Keeps

variable {L : Laws κ σ} {d e : Dispatch κ σ}

/-! ## Reads and searches -/

theorem askLayer (h : d.Keeps L e) (layer : Layer) (key : String) :
    (d.askLayer layer key).Keeps L.world (e.askLayer layer key) := by
  cases layer with
  | mapping m => exact .gets _
  | object id => exact h.readItem id key
  | sealed v => exact .bind (.gets _) fun _ => .fail _

section

variable (hL : L.world.Rendering)

include hL

theorem guardedRead (h : d.Keeps L e) (accessor : Option (Accessor κ)) (target : Value)
    (name : String) :
    (d.guardedRead accessor target name).Keeps L.world (e.guardedRead accessor target name) := by
  unfold Dispatch.guardedRead Dispatch.plainRead
  split
  · exact .bind (Laws.note hL List.not_mem_nil) fun _ => h.readAttr _ _
  · rename_i names
    split
    · exact .bind (.gets _) fun _ => .fail _
    · rename_i hname
      have hallowed : name ∉ names.keys := fun hmem => hname (Entries.mem_keys_iff.mp hmem)
      exact .bind (Laws.note hL hallowed) fun _ => h.readAttr _ _
  · exact .bind (Laws.note hL trivial) fun _ => h.access _ _ _

theorem readOr (h : d.Keeps L e) (s : Stack κ) (target : Value) (name : String)
    (default : Option Value) :
    (d.readOr s target name default).Keeps L.world (e.readOr s target name default) := by
  refine .bind (.attempt (h.guardedRead hL _ _ _)) fun outcome => ?_
  cases outcome with
  | ok value => exact .pure value
  | error cause =>
    cases default with
    | none => exact .fail cause
    | some value =>
      dsimp only
      split
      · exact .pure value
      · exact .fail cause

theorem canRead (h : d.Keeps L e) (s : Stack κ) (target : Value) (name : String) :
    (d.canRead s target name).Keeps L.world (e.canRead s target name) := by
  refine .bind (.attempt (h.guardedRead hL _ _ _)) fun outcome => ?_
  cases outcome with
  | ok value => exact .pure true
  | error cause =>
    dsimp only
    split
    · exact .pure false
    · exact .pure false
    · exact .pure false
    · exact .fail _

theorem search (h : d.Keeps L e) (key : String) (layers : List Layer) :
    (d.search key layers).Keeps L.world (e.search key layers) := by
  induction layers with
  | nil => exact .pure none
  | cons layer older ih =>
    refine .bind (Laws.note hL trivial) fun _ => .bind (h.askLayer layer key) fun answer => ?_
    cases answer with
    | none => exact ih
    | some v => exact .pure (some v)

theorem fetch (h : d.Keeps L e) (s : Stack κ) (key : String) :
    (d.fetch s key).Keeps L.world (e.fetch s key) :=
  .bind (h.search hL key s.layers) fun _ => .ofExcept _

theorem contains (h : d.Keeps L e) (s : Stack κ) (key : String) :
    (d.contains s key).Keeps L.world (e.contains s key) := by
  refine .bind (.attempt (h.fetch hL s key)) fun outcome => ?_
  cases outcome with
  | ok value => exact .pure true
  | error cause =>
    dsimp only
    split
    · exact .pure false
    · exact .fail cause

/-! ## Rendering -/

theorem related (h : d.Keeps L e) : d.Related (Laws.relation hL) e where
  fetch s key := .onWorld (h.fetch hL s key)
  call v := .onWorld (h.call v)
  apply := h.apply
  hook := h.hook
  evaluate := h.evaluate

theorem onAccess (h : d.Keeps L e) (v : Value) :
    (d.onAccess v).Keeps L.session (e.onAccess v) := (h.related hL).onAccess v

theorem lookup (h : d.Keeps L e) (key : String) (invoked : Bool) :
    (d.lookup key invoked).Keeps L.session (e.lookup key invoked) :=
  (h.related hL).lookup key invoked

theorem renderAll (h : d.Keeps L e) (blocks : List (Block κ)) :
    (d.renderAll blocks).Keeps L.session (e.renderAll blocks) := (h.related hL).renderAll blocks

theorem renderContent (h : d.Keeps L e) (t : Template κ) (client : Option Value)
    (keywords : Option MapId) :
    (d.renderContent t client keywords).Keeps L.session (e.renderContent t client keywords) :=
  (h.related hL).renderContent t client keywords

theorem renderNested (h : d.Keeps L e) (t : Template κ) (client : Option Value)
    (keywords : Option MapId) :
    (d.renderNested t client keywords).Keeps L.session (e.renderNested t client keywords) :=
  (h.related hL).renderNested t client keywords

/-- The law has to hold on the stack of the template, too. -/
theorem render (h : d.Keeps L e) (t : Template κ) (client : Option Value) (mapping : Option Layer)
    (keywords : Option MapId)
    (hown : ∀ w, L.world.Holds w → L.session.Holds ⟨w, t.settings.build⟩) :
    (d.render t client mapping keywords).Keeps L.world (e.render t client mapping keywords) :=
  .onOwnStack hown (.guarded (.bind (.enterAll _) fun _ =>
    .bind (.modify fun f => L.introduce client f) fun _ =>
      .onSession (h.renderContent hL t client keywords)))

end

end Dispatch.Keeps

/-! ## New templates and bundles -/

namespace Law.Library

variable {L : Law (World κ σ)} (hL : L.Library)

include hL

theorem newTemplate (w : World κ σ) (b : Blueprint κ) :
    L.Allows w (w.newTemplate b).2 := by
  refine .trans (hL.elsewhere w (w.newMap (.ofList b.vars)).2 rfl rfl rfl) ?_
  unfold World.newTemplate
  cases b.globals with
  | some m => exact hL.newObject _ _ (fun _ h => nomatch h)
  | none =>
    exact .trans (hL.elsewhere _ ((w.newMap (.ofList b.vars)).2.newMap ∅).2 rfl rfl rfl)
      (hL.newObject _ _ (fun _ h => nomatch h))

end Law.Library

theorem Laws.bundle {L : Laws κ σ} (hL : L.world.Library) (positional : List Value)
    (keywords : Option MapId) :
    Run.Keeps L.session
      (Run.modifyGet fun s : Session κ σ => s.bundle positional keywords)
      (Run.modifyGet fun s : Session κ σ => s.bundle positional keywords) := by
  refine .modifyGet fun s => ?_
  unfold Session.bundle
  dsimp only
  split
  · exact .refl _ s
  · exact allows_session (hL.newObject s.world (.bundle _) fun _ h => nomatch h)
  · exact allows_session ((hL.newEnclosure s.world _).trans
      (hL.newObject _ (.bundle _) fun _ h => nomatch h))

/-! ## Reads of views and of bundles -/

namespace Dispatch.Keeps

variable {L : Laws κ σ} {d e : Dispatch κ σ}

/-- A law that is free of what views remember, and of what is noted, is kept by their reads. -/
theorem viewGet (hL : L.world.Rendering)
    (hrecord : ∀ (w : World κ σ) event, L.world.Allows w (w.record event))
    (hremember : ∀ (w : World κ σ) id key value, L.world.Allows w (w.remember id key value))
    (h : d.Keeps L e) (id : ObjectId) (key : String) :
    (d.viewGet id key).Keeps L.world (e.viewGet id key) := by
  have hread (v : ObjectView κ) : (d.viewRead id v key).Keeps L.world (e.viewRead id v key) := by
    refine .bind (.attempt (h.guardedRead hL _ _ _)) fun outcome => ?_
    cases outcome with
    | ok value =>
      exact .bind (.modify fun w => hrecord w _) fun _ =>
        .bind (.modify fun w => hremember w _ _ _) fun _ => .pure _
    | error cause =>
      dsimp only
      split
      · exact .pure none
      · exact .fail cause
  have hanswer (v : ObjectView κ) :
      (d.viewAnswer id v key).Keeps L.world (e.viewAnswer id v key) := by
    unfold Dispatch.viewAnswer
    split
    · exact .pure _
    · split
      · exact .gets _
      · exact .pure none
      · exact hread v
  refine .bind .get fun w => ?_
  split
  · exact .pure none
  · rename_i v _
    intro w r w' hw hx
    unfold inRead at hx ⊢
    obtain ⟨hasked, hleads⟩ := hrecord w (.asked id key) hw
    cases hfound : d.viewAnswer id v key (w.record (.asked id key)) with
    | none => rw [hfound] at hx; cases hx
    | some p =>
      obtain ⟨r₁, w₁⟩ := p
      obtain ⟨hy, hw₁, hlead⟩ := hanswer v (w.record (.asked id key)) r₁ w₁ hasked hfound
      obtain ⟨hanswered, hends⟩ := hrecord w₁ (.answered id key r₁) hw₁
      rw [hfound] at hx
      cases hx
      rw [hy]
      exact ⟨rfl, hanswered, L.world.trans hleads (L.world.trans hlead hends)⟩

/-- A law is kept by reads of bundles if it holds while a stack is handed out, and allows that the
stack is given back as a look-up leaves it. -/
theorem readBundle_of_lookup (b : Bundle) (name : String)
    (hgive : ∀ (w : World κ σ) (id : EnclosureId) (stack : Stack κ),
      w.enclosures[id.index]? = some (.idle stack) → L.world.Holds w →
      L.session.Holds ⟨w.setEnclosure id .reading, stack⟩ ∧
      ∀ (r : Except Failure Value) (s : Session κ σ),
        d.lookup name true ⟨w.setEnclosure id .reading, stack⟩ = some (r, s) →
        L.session.Holds s → L.session.Leads ⟨w.setEnclosure id .reading, stack⟩ s →
        L.world.Holds (s.world.setEnclosure id (.idle s.stack)) ∧
          L.world.Leads w (s.world.setEnclosure id (.idle s.stack)))
    (hlookup : (d.lookup name true).Keeps L.session (e.lookup name true)) :
    (d.readBundle b name).Keeps L.world (e.readBundle b name) := by
  intro w r w' hw hx
  unfold Dispatch.readBundle at hx ⊢
  rw [Run.bind_ok (Run.get_apply w)] at hx ⊢
  cases b with
  | mapping m =>
    dsimp only at hx ⊢
    cases hvalue : (w.entries m).get? name with
    | some value =>
      rw [hvalue] at hx
      exact Run.Keeps.pure value w r w' hw hx
    | none =>
      rw [hvalue] at hx
      exact Run.Keeps.fail (Bundle.absent name) w r w' hw hx
  | enclosure id =>
    dsimp only at hx ⊢
    rcases hstate : w.enclosures[id.index]? with _ | ⟨stack⟩ | _
    · rw [hstate] at hx
      exact Run.Keeps.fail _ w r w' hw hx
    · rw [hstate] at hx
      dsimp only at hx ⊢
      unfold Dispatch.readEnclosure at hx ⊢
      obtain ⟨hreading, hback⟩ := hgive w id stack hstate hw
      cases hfound : d.lookup name true ⟨w.setEnclosure id .reading, stack⟩ with
      | none => rw [hfound] at hx; cases hx
      | some p =>
        obtain ⟨r₁, s⟩ := p
        obtain ⟨hy, hs, hlead⟩ :=
          hlookup ⟨w.setEnclosure id .reading, stack⟩ r₁ s hreading hfound
        rw [hfound] at hx
        rw [hy]
        refine ⟨hx, ?_⟩
        have hworld : w' = s.world.setEnclosure id (.idle s.stack) := by
          cases r₁ <;> cases hx <;> rfl
        rw [hworld]
        exact hback r₁ s hfound hs hlead
    · rw [hstate] at hx
      exact Run.Keeps.fail _ w r w' hw hx

/-- A law is kept by reads of bundles if it holds while a stack is handed out, and allows that the
stack is given back, however it is left. -/
theorem readBundle
    (hgive : ∀ (w : World κ σ) (id : EnclosureId) (stack : Stack κ),
      w.enclosures[id.index]? = some (.idle stack) → L.world.Holds w →
      L.session.Holds ⟨w.setEnclosure id .reading, stack⟩ ∧
      ∀ s : Session κ σ, L.session.Holds s →
        L.session.Leads ⟨w.setEnclosure id .reading, stack⟩ s →
        L.world.Holds (s.world.setEnclosure id (.idle s.stack)) ∧
          L.world.Leads w (s.world.setEnclosure id (.idle s.stack)))
    (hlookup : ∀ key, (d.lookup key true).Keeps L.session (e.lookup key true)) (b : Bundle)
    (name : String) : (d.readBundle b name).Keeps L.world (e.readBundle b name) := by
  refine readBundle_of_lookup b name (fun w id stack hidle hw => ?_) (hlookup name)
  obtain ⟨hreading, hback⟩ := hgive w id stack hidle hw
  exact ⟨hreading, fun _ s _ => hback s⟩

end Dispatch.Keeps

end LayeredScope
