import LayeredScope.Proofs.HostFree.Meaning

/-!
# Host-free rendering computes the meaning

* `Session.Restored` — what a host-free run leaves: the same stack, a world that has grown, and
  events in which every body that began has ended.
* `Run.Computes` — the run ends, with this outcome, and leaves a restored session.
* `Dispatch.Serves` — what rendering at one level needs of the calls: views answer, templates have
  no hook, and an invoked template is rendered as `nested` says.
* `Dispatch.Serves.renderOnto` — then blocks compute their meaning.
-/

namespace LayeredScope

variable {κ σ α β : Type}

/-- Nothing is left of what happened between `s` and `s'`, except in the journal, and for mappings
from the `cut`-th on and objects that were issued in between. -/
structure Session.Restored (cut room : Nat) (s s' : Session κ σ) : Prop where
  stack : s'.stack = s.stack
  world : s.world.KeepsBelow cut s'.world
  journal : ∃ events, s'.world.journal = events ++ s.world.journal ∧
    Event.NestedWithin room events

namespace Session.Restored

variable {cut room : Nat} {s s' s'' : Session κ σ}

theorem refl (cut room : Nat) (s : Session κ σ) : s.Restored cut room s :=
  ⟨rfl, .refl cut s.world, [], rfl, .nil room⟩

theorem trans (h : s.Restored cut room s') (h' : s'.Restored cut room s'') :
    s.Restored cut room s'' := by
  obtain ⟨events, hevents, hnested⟩ := h.journal
  obtain ⟨events', hevents', hnested'⟩ := h'.journal
  refine ⟨h'.stack.trans h.stack, h.world.trans h'.world, events' ++ events, ?_,
    hnested'.append hnested⟩
  rw [hevents', hevents, List.append_assoc]

theorem mono (h : s.Restored cut room s') {cut' room' : Nat} (hcut : cut' ≤ cut)
    (hroom : room ≤ room') : s.Restored cut' room' s' := by
  obtain ⟨events, hevents, hnested⟩ := h.journal
  exact ⟨h.stack, h.world.mono hcut, events, hevents, hnested.mono hroom⟩

theorem of_noted {w w' : World κ σ} (h : w.Noted w') (cut room : Nat) (st : Stack κ) :
    Restored cut room ⟨w, st⟩ ⟨w', st⟩ := by
  obtain ⟨events, rfl, hnested⟩ := h
  exact ⟨rfl, .of_journal cut w _, events, rfl, hnested.mono (Nat.zero_le room)⟩

/-- A session that restored everything that was issued makes visible what it made visible. -/
theorem sees {base : World κ σ} {ρ : Scope} (h : s.Restored s.world.maps.size room s')
    (hs : Sees base s ρ) : Sees base s' ρ :=
  hs.grow h.world (by rw [h.stack])

end Session.Restored

/-- The run from `s` ends with the outcome `r` and restores the session. -/
def Run.Computes (cut room : Nat) (x : Run (Session κ σ) α) (s : Session κ σ)
    (r : Except Failure α) : Prop :=
  ∃ s', x s = some (r, s') ∧ s.Restored cut room s'

namespace Run.Computes

variable {cut room : Nat} {s : Session κ σ}

theorem of_eq {x : Run (Session κ σ) α} {r : Except Failure α} (h : x s = some (r, s)) :
    x.Computes cut room s r := ⟨s, h, .refl cut room s⟩

theorem bind {x : Run (Session κ σ) α} {f : α → Run (Session κ σ) β} {rx : Except Failure α}
    {rf : α → Except Failure β} (hx : x.Computes cut room s rx)
    (hf : ∀ v s', rx = .ok v → s.Restored cut room s' → (f v).Computes cut room s' (rf v)) :
    (x >>= f).Computes cut room s (rx >>= rf) := by
  obtain ⟨s₁, hx, hrestored⟩ := hx
  cases rx with
  | error e => exact ⟨s₁, Run.bind_error hx, hrestored⟩
  | ok v =>
    obtain ⟨s₂, hf, hrestored'⟩ := hf v s₁ rfl hrestored
    exact ⟨s₂, (Run.bind_ok hx).trans hf, hrestored.trans hrestored'⟩

theorem map {x : Run (Session κ σ) α} {r : Except Failure α} (h : x.Computes cut room s r)
    (f : α → β) : (x >>= fun v => pure (f v)).Computes cut room s (r.map f) := by
  have hmap : r.map f = r >>= fun v => .ok (f v) := by cases r <;> rfl
  rw [hmap]
  exact .bind h fun _ _ _ _ => .of_eq rfl

theorem mono {x : Run (Session κ σ) α} {r : Except Failure α} (h : x.Computes cut room s r)
    {cut' room' : Nat} (hcut : cut' ≤ cut) (hroom : room ≤ room') :
    x.Computes cut' room' s r := by
  obtain ⟨s', hx, hrestored⟩ := h
  exact ⟨s', hx, hrestored.mono hcut hroom⟩

/-- A run that goes on from a restored session as another run does. -/
theorem of_restored {x y : Run (Session κ σ) α} {r : Except Failure α} {s' : Session κ σ}
    (hr : s.Restored cut room s') (hxy : x s = y s') (hy : y.Computes cut room s' r) :
    x.Computes cut room s r := by
  obtain ⟨s'', hy, hrestored⟩ := hy
  exact ⟨s'', hxy.trans hy, hr.trans hrestored⟩

/-- A run under a guard that pushes layers and then goes on as another run does, if the guard takes
exactly those layers off again. -/
theorem guarded {y : Run (Frame κ σ) α} {x : Run (Session κ σ) α} {s' : Session κ σ} {g : Guard}
    {r : Except Failure α} (hy : y ⟨s, {}⟩ = x.onSession ⟨s', g⟩)
    (hclose : g.close s'.stack = s.stack) (hworld : s.world.KeepsBelow cut s'.world)
    (hjournal : s'.world.journal = s.world.journal) (hx : x.Computes cut room s' r) :
    (LayeredScope.guarded y).Computes cut room s r := by
  obtain ⟨s'', hx, hrestored⟩ := hx
  refine ⟨⟨s''.world, s.stack⟩, ?_, rfl, hworld.trans hrestored.world,
    hjournal ▸ hrestored.journal⟩
  rw [guarded_apply, hy, Run.onSession_apply, hx, ← hclose, ← hrestored.stack]

/-- Layers around a run are taken off again. -/
theorem withLayers {layers : List Layer} {x : Run (Session κ σ) α} {r : Except Failure α}
    (hx : x.Computes cut room { s with stack := s.stack.pushAll layers } r) :
    (LayeredScope.withLayers layers x).Computes cut room s r := by
  obtain ⟨s', hx, hrestored⟩ := hx
  exact ⟨⟨s'.world, s.stack⟩, withLayers_eq hx hrestored.stack, rfl, hrestored.world,
    hrestored.journal⟩

/-- A body that takes one more room is noted. -/
theorem inBody {x : Run (Session κ σ) α} {r : Except Failure α}
    (hx : x.Computes cut room { s with world := s.world.record (.opened s.stack.level) } r) :
    (LayeredScope.inBody x).Computes cut (room + 1) s r := by
  obtain ⟨s', hx, hrestored⟩ := hx
  obtain ⟨events, hevents, hnested⟩ := hrestored.journal
  refine ⟨{ s' with world := s'.world.record .closed }, ?_, hrestored.stack,
    ?_, .closed :: (events ++ [.opened s.stack.level]), ?_, hnested.bracket _⟩
  · unfold LayeredScope.inBody
    rw [hx]
  · exact (World.KeepsBelow.of_journal cut s.world _).trans
      (hrestored.world.trans (.of_journal cut s'.world _))
  · show .closed :: s'.world.journal = _
    rw [hevents, List.cons_append, List.append_assoc]
    rfl

end Run.Computes

/-- A look-up that finds a template invokes it, if the template does not answer for itself. -/
theorem Dispatch.onAccess_template (d : Dispatch κ σ) {id : ObjectId} {s : Session κ σ}
    (hhook : d.hook id s = some (.ok none, s)) {t : Template κ}
    (ht : s.world.template? id = some t) :
    d.onAccess (.object id) s =
      d.apply (.object id) none ⟨s.world.record (.applied (.object id)), s.stack⟩ := by
  have hobject := World.template?_eq_some.mp ht
  have htreatment : s.world.treatment (.object id) = .template := by
    simp [World.treatment, World.inner, World.isCallable, World.isTemplate, hobject,
      Object.inner, Object.isCallable, Object.isTemplate]
  show (d.hook id >>= _) s = _
  rw [Run.bind_ok hhook]
  show (Run.gets _ >>= _) s = _
  rw [Run.bind_ok (Run.gets_apply _ s), htreatment]
  rfl

/-- What rendering at a level needs of the calls, if up to `room` bodies may be opened from
there. -/
structure Dispatch.Serves (d : Dispatch κ σ) (base : World κ σ) (level : Int64) (room : Nat)
    (nested : Scope → Template κ → Except Failure String) : Prop where
  views : d.AnswersViews base
  hook : ∀ id s, (s.world.template? id).isSome → d.hook id s = some (.ok none, s)
  apply : ∀ id t s ρ, base.template? id = some t → s.stack.level = level → Sees base s ρ →
    (d.apply (.object id) none).Computes s.world.maps.size room s ((nested ρ t).map .str)

namespace Dispatch.Serves

variable {d : Dispatch κ σ} {base : World κ σ} {level : Int64} {room : Nat}
  {nested : Scope → Template κ → Except Failure String}

theorem fetch (hd : d.Serves base level room nested) {s : Session κ σ} {ρ : Scope}
    (hs : Sees base s ρ) (name : String) :
    (d.fetch s.stack name).onWorld.Computes s.world.maps.size room s (found name (ρ name)) := by
  obtain ⟨w', hsearch, hnoted⟩ := hd.views.search_eq name s.stack.layers hs.grows hs.readable
  rw [hs.visible] at hsearch
  have hfetch : d.fetch s.stack name s.world = some (found name (ρ name), w') :=
    Run.bind_ok hsearch
  exact ⟨⟨w', s.stack⟩, Run.onWorld_eq hfetch, .of_noted hnoted _ _ _⟩

/-- What is made of a value without a host: only templates are invoked. -/
theorem onAccess (hd : d.Serves base level room nested) {s : Session κ σ} {ρ : Scope}
    (hs : Sees base s ρ) (hlevel : s.stack.level = level) {v : Value}
    (hv : base.isHostFree v = true) :
    (d.onAccess v).Computes s.world.maps.size room s (Meaning.onAccess base nested ρ v) := by
  cases v with
  | object id =>
    obtain ⟨t, ht⟩ := Option.isSome_iff_exists.mp hv
    have ht' : s.world.template? id = some t := hs.grows.template?_eq ht
    have hnoted : s.world.Noted (s.world.record (.applied (.object id))) := .record s.world rfl
    have hrestored := Session.Restored.of_noted hnoted s.world.maps.size room s.stack
    have hrun := d.onAccess_template (hd.hook id s (Option.isSome_iff_exists.mpr ⟨t, ht'⟩)) ht'
    simp only [Meaning.onAccess, ht]
    exact .of_restored hrestored hrun (hd.apply id t _ ρ ht hlevel (hrestored.sees hs))
  | function id => cases hv
  | none | bool b | int n | float x | str text | list items | map m => exact .of_eq rfl

theorem lookup (hd : d.Serves base level room nested) {s : Session κ σ} {ρ : Scope}
    (hs : Sees base s ρ) (hlevel : s.stack.level = level) (name : String) :
    (d.lookup name true).Computes s.world.maps.size room s
      (Meaning.lookup base nested ρ name) := by
  have hrun : d.lookup name true s = ((d.fetch s.stack name).onWorld >>= d.onAccess) s := rfl
  refine .of_restored (.refl _ _ s) hrun (.bind (hd.fetch hs name) fun v s' hv hrestored => ?_)
  have hfree : base.isHostFree v = true := by
    cases hρ : ρ name with
    | none => rw [hρ] at hv; cases hv
    | some value =>
      rw [hρ] at hv
      cases hv
      exact hs.hostFree name v hρ
  refine (hd.onAccess (hrestored.sees hs) ?_ hfree).mono hrestored.world.maps_le (Nat.le_refl _)
  rw [hrestored.stack, hlevel]

/-! ## Blocks -/

variable {limit : Int64}

/-- A condition whose name is found: it is kept under the name, whether it holds or not. -/
theorem holds_ok (hd : d.Serves base level room nested) {s : Session κ σ} {ρ : Scope}
    (hs : Sees base s ρ) (hlevel : s.stack.level = level) {kept : MapId}
    (hk : KeptOnTop base kept s) {name : String} {v : Value}
    (hv : Meaning.lookup base nested ρ name = .ok v) :
    ∃ s', d.holds kept (.name name) s = some (.ok (base.isTruthy v), s') ∧
      s.Restored kept.index room s' ∧ Sees base s' (ρ.bind name v) ∧ KeptOnTop base kept s' := by
  have hfree := Meaning.isHostFree_of_lookup base nested hs.hostFree hv
  obtain ⟨s₁, hlookup, hrestored⟩ := hd.lookup hs hlevel name
  rw [hv] at hlookup
  have hs₁ : Sees base s₁ ρ := hrestored.sees hs
  have hk₁ : KeptOnTop base kept s₁ := hk.grow hrestored.world.maps_le (by rw [hrestored.stack])
  refine ⟨⟨s₁.world.insert kept name v, s₁.stack⟩, ?_, ?_, hs₁.bind hk₁ hfree name,
    ⟨hk₁.top, ?_, hk₁.fresh⟩⟩
  · rw [Dispatch.holds_name_apply, hlookup, ← hs₁.grows.isTruthy_eq hfree]
  · have hinsert : s₁.Restored kept.index room ⟨s₁.world.insert kept name v, s₁.stack⟩ :=
      ⟨rfl, .insert (Nat.le_refl _) name v, [], rfl, .nil room⟩
    exact (hrestored.mono (Nat.le_of_lt hk.issued) (Nat.le_refl _)).trans hinsert
  · have hissued := hk₁.issued
    simpa [World.insert, World.setEntries] using hissued

/-- A condition whose name is not found, or fails when it is invoked: only a miss of the name
itself means no. -/
theorem holds_error (hd : d.Serves base level room nested) {s : Session κ σ} {ρ : Scope}
    (hs : Sees base s ρ) (hlevel : s.stack.level = level) (kept : MapId) {name : String}
    {e : Failure} (he : Meaning.lookup base nested ρ name = .error e) :
    (d.holds kept (.name name)).Computes s.world.maps.size room s
      (if e.isMissOf name then .ok false else .error e) := by
  obtain ⟨s₁, hlookup, hrestored⟩ := hd.lookup hs hlevel name
  rw [he] at hlookup
  refine ⟨s₁, ?_, hrestored⟩
  rw [Dispatch.holds_name_apply, hlookup]

mutual

/-- **Host-free blocks compute their meaning**, by the recursion of the blocks. -/
theorem renderOnto (hd : d.Serves base level room nested) (hbase : base.HostFree limit)
    {s : Session κ σ} {ρ : Scope} (hs : Sees base s ρ) (hlevel : s.stack.level = level)
    (out : String) : (blocks : List (Block κ)) → Block.areHostFree blocks = true →
      (d.renderOnto out blocks).Computes s.world.maps.size room s
        (Meaning.renderOnto base nested ρ out blocks)
  | [], _ => .of_eq rfl
  | block :: rest, hfree => by
    simp only [Block.areHostFree, Bool.and_eq_true] at hfree
    refine .bind (renderBlock hd hbase hs hlevel out block hfree.1) fun out s' _ hr => ?_
    refine (renderOnto hd hbase (hr.sees hs) ?_ out rest hfree.2).mono hr.world.maps_le
      (Nat.le_refl _)
    rw [hr.stack, hlevel]

theorem renderBlock (hd : d.Serves base level room nested) (hbase : base.HostFree limit)
    {s : Session κ σ} {ρ : Scope} (hs : Sees base s ρ) (hlevel : s.stack.level = level)
    (out : String) : (block : Block κ) → block.isHostFree = true →
      (d.renderBlock out block).Computes s.world.maps.size room s
        (Meaning.renderBlock base nested ρ out block)
  | .text _, _ => .of_eq rfl
  | .insert (.name name), _ => by
    refine .bind (hd.lookup hs hlevel name) fun v s' hv hr => ?_
    have hfree := Meaning.isHostFree_of_lookup base nested hs.hostFree hv
    rw [← (hr.sees hs).grows.display_eq hbase hfree]
    exact .of_eq rfl
  | .insert (.code _), hfree | .code _, hfree => nomatch hfree
  | .choose branches otherwise, hfree => by
    simp only [Block.isHostFree, Bool.and_eq_true] at hfree
    have hnew : s.Restored s.world.maps.size room ⟨(s.world.newMap ∅).2, s.stack⟩ :=
      ⟨rfl, World.Grows.newMap s.world ∅, [], rfl, .nil room⟩
    -- the branches run with the mapping of the choice on top
    have hbranches := renderBranches hd hbase hs.push_kept hlevel out hs.keptOnTop
      (fun hs' hlevel' hk' => (renderOtherwise hd hbase hs' hlevel' out otherwise hfree.2).mono
        (Nat.le_of_lt hk'.issued) (Nat.le_refl _)) branches hfree.1
    have hchoice : (withLayers [.mapping (s.world.newMap ∅).1]
        (d.renderBranches out (s.world.newMap ∅).1 (d.renderOtherwise out otherwise)
          branches)).Computes s.world.maps.size room ⟨(s.world.newMap ∅).2, s.stack⟩
        (Meaning.renderBlock base nested ρ out (.choose branches otherwise)) :=
      .withLayers hbranches
    exact .of_restored hnew rfl hchoice

theorem renderBranches (hd : d.Serves base level room nested) (hbase : base.HostFree limit)
    {s : Session κ σ} {ρ : Scope} (hs : Sees base s ρ) (hlevel : s.stack.level = level)
    (out : String) {kept : MapId} (hk : KeptOnTop base kept s)
    {otherwise : Run (Session κ σ) String} {meaning : Scope → Except Failure String}
    (ho : ∀ {s : Session κ σ} {ρ : Scope}, Sees base s ρ → s.stack.level = level →
      KeptOnTop base kept s → otherwise.Computes kept.index room s (meaning ρ)) :
    (branches : List (Expr κ × List (Block κ))) → Block.branchesAreHostFree branches = true →
      (d.renderBranches out kept otherwise branches).Computes kept.index room s
        (Meaning.renderBranches base nested ρ out meaning branches)
  | [], _ => ho hs hlevel hk
  | (.code _, _) :: _, hfree => nomatch hfree
  | (.name name, body) :: rest, hfree => by
    simp only [Block.branchesAreHostFree, Bool.and_eq_true] at hfree
    simp only [Meaning.renderBranches]
    cases hv : Meaning.lookup base nested ρ name with
    | ok v =>
      obtain ⟨s', hholds, hr, hs', hk'⟩ := hd.holds_ok hs hlevel hk hv
      have hlevel' : s'.stack.level = level := by rw [hr.stack, hlevel]
      dsimp only
      cases htruthy : base.isTruthy v with
      | true =>
        rw [htruthy] at hholds
        exact .of_restored hr (Run.bind_ok hholds)
          ((renderOnto hd hbase hs' hlevel' out body hfree.1.2).mono (Nat.le_of_lt hk'.issued)
            (Nat.le_refl _))
      | false =>
        rw [htruthy] at hholds
        exact .of_restored hr (Run.bind_ok hholds)
          (renderBranches hd hbase hs' hlevel' out hk' ho rest hfree.2)
    | error e =>
      obtain ⟨s', hholds, hr⟩ := hd.holds_error hs hlevel kept hv
      have hr' := hr.mono (Nat.le_of_lt hk.issued) (Nat.le_refl room)
      dsimp only
      cases hmiss : e.isMissOf name with
      | true =>
        rw [hmiss] at hholds
        have hk' : KeptOnTop base kept s' := hk.grow hr.world.maps_le (by rw [hr.stack])
        have hlevel' : s'.stack.level = level := by rw [hr.stack, hlevel]
        exact .of_restored hr' (Run.bind_ok hholds)
          (renderBranches hd hbase (hr.sees hs) hlevel' out hk' ho rest hfree.2)
      | false =>
        rw [hmiss] at hholds
        exact ⟨s', Run.bind_error hholds, hr'⟩

theorem renderOtherwise (hd : d.Serves base level room nested) (hbase : base.HostFree limit)
    {s : Session κ σ} {ρ : Scope} (hs : Sees base s ρ) (hlevel : s.stack.level = level)
    (out : String) : (otherwise : Option (List (Block κ))) →
      Block.otherwiseIsHostFree otherwise = true →
      (d.renderOtherwise out otherwise).Computes s.world.maps.size room s
        (Meaning.renderOtherwise base nested ρ out otherwise)
  | none, _ => .of_eq rfl
  | some body, hfree => renderOnto hd hbase hs hlevel out body hfree

end

end Dispatch.Serves

end LayeredScope
