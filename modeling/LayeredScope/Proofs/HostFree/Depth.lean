import LayeredScope.Proofs.Fuel
import LayeredScope.Proofs.HostFree.Templates

/-!
# Templates cut off at a depth

A template whose limit is the greatest level can be nested without end, and then there is nothing
that it means. A run that does end has nested its templates only so deep, though. Here the calls of
a host are cut off at a depth, where every template fails. Cut off like that they serve rendering
whatever the limits are.

* `Host.shallow` — the calls, with templates nested no deeper than so.
* `Host.shallow_serves` — they serve rendering at every level.
* `Host.dispatch_le_shallow` — **what ends, ends in the same way when it is cut off deep enough.**
* `Run.LeUnless`, `Host.shallow_leUnless` — what ends when it is cut off, and not with the failure
  of the cut, ends in the same way without.
-/

namespace LayeredScope

variable {κ σ α β : Type}

/-- The template that a value is, if it is one. -/
def World.templateOf? (w : World κ σ) : Value → Option (Template κ)
  | .object id => w.template? id
  | _ => none

/-- The calls of a host, where a template that is nested more than `depth` deep fails with
`stop`. -/
def Host.shallow (h : Host κ σ) (stop : Failure) : Nat → Dispatch κ σ
  | 0 => { h.dispatch 2 with apply := fun _ _ => Run.fail stop }
  | depth + 1 =>
    { h.dispatch (depth + 3) with
      apply := fun v client s =>
        match s.world.templateOf? v with
        | some t =>
          ((h.shallow stop depth).renderNested t client none >>= fun text => pure (.str text)) s
        | none => (h.dispatch (depth + 3)).apply v client s }

/-- The calls serve rendering at every level, each level in its own way. -/
def Dispatch.ServesAll (d : Dispatch κ σ) (base : World κ σ) (room : Nat) : Prop :=
  ∀ level, ∃ nested, d.Serves base level room nested

/-- **Cut off at a depth, the calls serve rendering**, whatever the limits of the templates are. By
induction on the depth: the body of a template is rendered by the calls that are cut off one
earlier. -/
theorem Host.shallow_serves (h : Host κ σ) (stop : Failure) {limit : Int64} {base : World κ σ}
    (hbase : base.HostFree limit) (depth : Nat) : (h.shallow stop depth).ServesAll base depth := by
  induction depth with
  | zero =>
    intro level
    exact ⟨fun _ _ => .error stop, h.answersViews 0 hbase, fun id s hid => h.hook_template 1 hid,
      fun id t s ρ ht hlevel hs => .of_eq rfl⟩
  | succ depth ih =>
    intro level
    obtain ⟨nested, hserves⟩ := ih (Stack.deeper level)
    refine ⟨fun ρ t =>
      if t.nestingLimit < level then .error (.recursionLimit t.nestingLimit)
      else Meaning.renderOnto base nested (ρ.within base t) "" t.blocks,
      h.answersViews (depth + 1) hbase, fun id s hid => h.hook_template (depth + 2) hid,
      fun id t s ρ ht hlevel hs => ?_⟩
    have htemplate : s.world.templateOf? (.object id) = some t := hs.grows.template?_eq ht
    have happly : (h.shallow stop (depth + 1)).apply (.object id) none s =
        ((h.shallow stop depth).renderNested t none none >>= fun text => pure (.str text)) s := by
      simp only [Host.shallow, htemplate]
    have hfree : t.HostFree limit base := hbase.templates id t ht
    refine .of_restored (.refl _ _ s) happly ?_
    by_cases hrefused : t.nestingLimit < level
    · simp only [if_pos hrefused]
      exact .of_eq (Run.bind_error
        (Dispatch.renderNested_refused _ (by rw [hlevel]; exact hrefused) none none))
    · simp only [if_neg hrefused]
      have hbody : ((h.shallow stop depth).renderNested t none none).Computes s.world.maps.size
          (depth + 1) s (Meaning.renderOnto base nested (ρ.within base t) "" t.blocks) :=
        hserves.renderNested hbase hs hlevel hfree hrefused (.inl rfl) rfl nofun
      exact hbody.map Value.str

/-- **What ends, ends in the same way when it is cut off deep enough**: the fuel bounds
the depth. -/
theorem Host.dispatch_le_shallow (h : Host κ σ) (stop : Failure) (depth : Nat) :
    (h.dispatch depth).Le (h.shallow stop depth) := by
  induction depth with
  | zero =>
    have hle : (h.dispatch 0).Le (h.dispatch 2) := h.dispatch_le (Nat.zero_le 2)
    exact { hle with apply := fun _ _ => Run.unfinished_le _ }
  | succ depth ih =>
    have hle : (h.dispatch (depth + 1)).Le (h.dispatch (depth + 3)) := h.dispatch_le (by omega)
    refine { hle with apply := fun v client s p hp => ?_ }
    simp only [Host.shallow]
    split
    · rename_i t ht
      obtain ⟨id, rfl⟩ : ∃ id, v = .object id := by
        cases v with
        | object id => exact ⟨id, rfl⟩
        | _ => cases ht
      rw [h.apply_template depth ht client] at hp
      exact Run.Le.bind (ih.renderNested t client none) (fun _ => .refl _) s p hp
    · exact hle.apply v client s p hp

/-- What ends, ends as is computed by what finishes no less. -/
theorem Run.Computes.of_le {x y : Run (Session κ σ) α} {cut room : Nat} {s s' : Session κ σ}
    {r r₀ : Except Failure α} (hy : y.Computes cut room s r₀) (hle : x.Le y)
    (hx : x s = some (r, s')) : r = r₀ ∧ s.Restored cut room s' := by
  obtain ⟨s₀, hrun, hrestored⟩ := hy
  have hend := hle s _ hx
  rw [hrun] at hend
  cases hend
  exact ⟨rfl, hrestored⟩

/-- A search that ends has found what is visible. -/
theorem Host.fetch_eq_found (h : Host κ σ) {limit : Int64} {base : World κ σ}
    (hbase : base.HostFree limit) {s : Session κ σ} {ρ : Scope} (hs : Sees base s ρ) {fuel : Nat}
    {name : String} {r : Except Failure Value} {w : World κ σ}
    (hr : (h.dispatch fuel).fetch s.stack name s.world = some (r, w)) :
    r = found name (ρ name) := by
  let stop := Failure.recursionLimit 0
  obtain ⟨nested, hserves⟩ := h.shallow_serves stop hbase fuel s.stack.level
  exact ((hserves.fetch hs name).of_le
    (.onWorld ((h.dispatch_le_shallow stop fuel).fetch s.stack name)) (Run.onWorld_eq hr)).1

/-! ## The failure of the cut -/

/-- `y` finishes every run that `x` finishes, in the same way, unless it failed with `stop`. -/
def Run.LeUnless {s : Type} (stop : Failure) (x y : Run s α) : Prop :=
  ∀ a r b, x a = some (r, b) → r ≠ .error stop → y a = some (r, b)

namespace Run.LeUnless

variable {s : Type} {stop : Failure}

theorem refl (x : Run s α) : LeUnless stop x x := fun _ _ _ h _ => h

theorem bind {x y : Run s α} {f g : α → Run s β} (hx : LeUnless stop x y)
    (hf : ∀ v, LeUnless stop (f v) (g v)) : LeUnless stop (x >>= f) (y >>= g) := by
  intro a r b h hr
  rw [Run.bind_apply] at h
  cases hxa : x a with
  | none => rw [hxa] at h; cases h
  | some p =>
    obtain ⟨r₁, a₁⟩ := p
    rw [hxa] at h
    cases r₁ with
    | error e =>
      cases h
      exact Run.bind_error (hx a _ _ hxa fun heq => by cases heq; exact hr rfl)
    | ok v =>
      rw [Run.bind_ok (hx a _ _ hxa nofun)]
      exact hf v a₁ r b h hr

theorem onSession {x y : Run (Session κ σ) α} (hx : LeUnless stop x y) :
    LeUnless stop x.onSession y.onSession := by
  intro f r f' h hr
  rw [Run.onSession_apply] at h ⊢
  cases hxs : x f.toSession with
  | none => rw [hxs] at h; cases h
  | some p =>
    rw [hxs] at h
    cases h
    rw [hx _ _ _ hxs hr]

theorem guarded {x y : Run (Frame κ σ) α} (hx : LeUnless stop x y) :
    LeUnless stop (LayeredScope.guarded x) (LayeredScope.guarded y) := by
  intro s r s' h hr
  rw [guarded_apply] at h ⊢
  cases hxs : x ⟨s, {}⟩ with
  | none => rw [hxs] at h; cases h
  | some p =>
    rw [hxs] at h
    cases h
    rw [hx _ _ _ hxs hr]

theorem withLayers {x y : Run (Session κ σ) α} (layers : List Layer) (hx : LeUnless stop x y) :
    LeUnless stop (LayeredScope.withLayers layers x) (LayeredScope.withLayers layers y) :=
  guarded (bind (refl _) fun _ => onSession hx)

theorem inBody {x y : Run (Session κ σ) α} (hx : LeUnless stop x y) :
    LeUnless stop (LayeredScope.inBody x) (LayeredScope.inBody y) := by
  intro s r s' h hr
  unfold LayeredScope.inBody at h ⊢
  cases hxs : x { s with world := s.world.record (.opened s.stack.level) } with
  | none => rw [hxs] at h; cases h
  | some p =>
    rw [hxs] at h
    cases h
    rw [hx _ _ _ hxs hr]

/-- A condition on a name hides a miss, and nothing else, so the failure of the cut shows. -/
theorem holds (hstop : stop.isMiss = false) {d e : Dispatch κ σ} {kept : MapId} {name : String}
    (h : LeUnless stop (d.lookup name true) (e.lookup name true)) :
    LeUnless stop (d.holds kept (.name name)) (e.holds kept (.name name)) := by
  have hmiss : stop.isMissOf name = false := by
    cases stop with
    | missingKey key => cases hstop
    | _ => rfl
  intro s r s' hd hr
  rw [Dispatch.holds_name_apply] at hd ⊢
  cases hlookup : d.lookup name true s with
  | none => rw [hlookup] at hd; cases hd
  | some p =>
    obtain ⟨r₁, s₁⟩ := p
    rw [hlookup] at hd
    have hne : r₁ ≠ .error stop := by
      rintro rfl
      simp only [hmiss] at hd
      cases hd
      exact hr rfl
    rw [h s r₁ s₁ hlookup hne]
    exact hd

/-- Rendering goes along with the cut, if its failure is no miss. -/
def relation (hstop : stop.isMiss = false) : StackRelation κ σ where
  Rel := LeUnless stop
  Kept _ := True
  pure v := refl (Pure.pure v)
  fail e := refl (Run.fail e)
  gets f := refl (Run.gets f)
  bind := bind
  applied _ := refl _
  called _ := refl _
  tested _ h := holds hstop h
  choice h := bind (refl _) fun kept =>
    guarded (bind (refl _) fun _ => onSession (h kept trivial))
  body _ _ _ _ _ h := guarded (bind (refl _) fun _ => onSession (inBody h))
  layers layers _ _ h := withLayers layers h

end Run.LeUnless

/-- Two records of calls that differ in how templates are invoked only, and there only where the one
fails with `stop`, which is no miss. -/
structure Dispatch.LeUnless (stop : Failure) (d e : Dispatch κ σ) : Prop where
  readItem : d.readItem = e.readItem
  call : d.call = e.call
  hook : d.hook = e.hook
  evaluate : d.evaluate = e.evaluate
  apply : ∀ v client, Run.LeUnless stop (d.apply v client) (e.apply v client)
  noMiss : stop.isMiss = false

namespace Dispatch.LeUnless

variable {stop : Failure} {d e : Dispatch κ σ}

theorem search (h : d.LeUnless stop e) (key : String) (layers : List Layer) :
    d.search key layers = e.search key layers := by
  have hask : ∀ layer, d.askLayer layer key = e.askLayer layer key := by
    intro layer
    simp only [Dispatch.askLayer, h.readItem]
  induction layers with
  | nil => rfl
  | cons layer older ih => simp only [Dispatch.search, hask, ih]

theorem fetch (h : d.LeUnless stop e) (s : Stack κ) (key : String) :
    d.fetch s key = e.fetch s key := by
  simp only [Dispatch.fetch, h.search]

theorem related (h : d.LeUnless stop e) : d.Related (Run.LeUnless.relation h.noMiss) e where
  fetch s key := h.fetch s key ▸ .refl _
  call _ := h.call ▸ .refl _
  apply := h.apply
  hook _ := h.hook ▸ .refl _
  evaluate _ := h.evaluate ▸ .refl _

end Dispatch.LeUnless

/-- **What ends when it is cut off, and not with the failure of the cut, ends in the same way
without.** -/
theorem Host.shallow_leUnless (h : Host κ σ) {stop : Failure} (hstop : stop.isMiss = false)
    (depth : Nat) : (h.shallow stop depth).LeUnless stop (h.dispatch (depth + 2)) := by
  induction depth with
  | zero =>
    refine ⟨rfl, rfl, rfl, rfl, fun v client s r s' hx hr => ?_, hstop⟩
    cases hx
    exact absurd rfl hr
  | succ depth ih =>
    refine ⟨rfl, rfl, rfl, rfl, fun v client s r s' hx hr => ?_, hstop⟩
    simp only [Host.shallow] at hx
    split at hx
    · rename_i t ht
      obtain ⟨id, rfl⟩ : ∃ id, v = .object id := by
        cases v with
        | object id => exact ⟨id, rfl⟩
        | _ => cases ht
      rw [h.apply_template (depth + 2) ht client]
      exact Run.LeUnless.bind (ih.related.renderNested t client none) (fun _ => .refl _) s r s'
        hx hr
    · exact hx

end LayeredScope
