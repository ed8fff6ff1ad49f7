import LayeredScope.Proofs.HostFree.Depth
import LayeredScope.Proofs.Reaching
import LayeredScope.Proofs.Termination

/-!
# Where the failures of rendering come from

Without a host a render can fail in two ways only. A name is inserted that no layer defines at that
point, or a template is refused because it is nested too deep. A name that is missing as a condition
is no failure, and views, lists, mappings and templates have no failure of their own to add.

* `Dispatch.Traced` — the failures of the templates that are invoked by one record of calls have
  their origins by another one.
* `Dispatch.Traced.lookup_error` — a look-up that fails does not find the name, or finds a template
  whose body fails.
* `Dispatch.Traced.renderOnto_origin` — a failure of blocks has its origin, by the recursion of the
  blocks.
* `Host.dispatch_traced` — so have the failures of templates, by induction on the fuel.
* `Host.failure_origin` — **every failure of a render without a host has its origin**, at any level
  and whatever the limits are.
-/

namespace LayeredScope

variable {κ σ : Type}

/-! ## Look-ups -/

/-- A name that is not visible is held by no layer. -/
theorem World.answer_eq_none {base w : World κ σ} {key : String} {layers : List Layer}
    (h : base.visible w layers key = none) : ∀ layer ∈ layers, base.answer w layer key = none := by
  induction layers with
  | nil => nofun
  | cons layer older ih =>
    simp only [World.visible, Scope.cover, Option.or_eq_none_iff] at h
    intro l hl
    rcases List.mem_cons.mp hl with rfl | hl
    · exact h.1
    · exact ih h.2 l hl

namespace Dispatch

/-- A condition on a name fails as its look-up does, unless that is a miss of the name. -/
theorem holds_eq_error {d : Dispatch κ σ} {kept : MapId} {name : String} {x : Failure}
    {s s' : Session κ σ} (h : d.holds kept (.name name) s = some (.error x, s')) :
    d.lookup name true s = some (.error x, s') ∧ x ≠ .missingKey name := by
  rw [holds_name_apply] at h
  split at h
  · cases h
  · cases h
  · rename_i y s₁ hlookup
    split at h
    · cases h
    · rename_i hmiss
      cases h
      exact ⟨hlookup, fun heq => hmiss (Failure.isMissOf_iff.mpr heq)⟩

/-- The failures of templates that are invoked by `d` have their origins by `e`, which finishes
whatever `d` finishes. What `d` finishes is what rendering without a host should finish with, since
calls that serve rendering at every level finish it too. -/
structure Traced (d e : Dispatch κ σ) (base : World κ σ) : Prop where
  le : d.Le e
  served : ∃ f room, d.Le f ∧ f.ServesAll base room
  views : e.AnswersViews base
  body : ∀ {id : ObjectId} {t : Template κ} {s s' : Session κ σ} {ρ : Scope} {x : Failure},
    base.template? id = some t → Sees base s ρ →
    d.apply (.object id) none s = some (.error x, s') →
    e.BodyOrigin t none none (s.withGlobals t) x

namespace Traced

variable {d e : Dispatch κ σ} {base : World κ σ} {limit : Int64}

section

variable {s s' : Session κ σ} {ρ : Scope}

/-- What a block leaves makes visible what was visible. -/
theorem renderBlock_sees (hd : d.Traced e base) (hbase : base.HostFree limit) (hs : Sees base s ρ)
    {out : String} {block : Block κ} (hfree : block.isHostFree = true) {r : Except Failure String}
    (hrun : d.renderBlock out block s = some (r, s')) : Sees base s' ρ := by
  obtain ⟨f, room, hle, hserves⟩ := hd.served
  obtain ⟨nested, hserves⟩ := hserves s.stack.level
  have hcomputes := hserves.renderBlock hbase hs rfl out block hfree
  exact (hcomputes.of_le (hle.renderBlock out block) hrun).2.sees hs

/-- What a condition leaves makes visible what was visible, and the name if it was found. -/
theorem holds_sees (hd : d.Traced e base) (hs : Sees base s ρ) {kept : MapId}
    (hk : KeptOnTop base kept s) {name : String} {r : Except Failure Bool}
    (hrun : d.holds kept (.name name) s = some (r, s')) :
    (∃ ρ', Sees base s' ρ') ∧ KeptOnTop base kept s' := by
  obtain ⟨f, room, hle, hserves⟩ := hd.served
  obtain ⟨nested, hserves⟩ := hserves s.stack.level
  cases hv : Meaning.lookup base nested ρ name with
  | ok v =>
    obtain ⟨s₁, hholds, -, hs₁, hk₁⟩ := hserves.holds_ok hs rfl hk hv
    have hend := hle.holds kept (.name name) s _ hrun
    rw [hholds] at hend
    cases hend
    exact ⟨⟨_, hs₁⟩, hk₁⟩
  | error x =>
    have hcomputes := hserves.holds_error hs rfl kept hv
    obtain ⟨-, hrestored⟩ := hcomputes.of_le (hle.holds kept (.name name)) hrun
    exact ⟨⟨ρ, hrestored.sees hs⟩, hk.grow hrestored.world.maps_le (by rw [hrestored.stack])⟩

/-- Of the values without a host only a template can fail when it is invoked, and then its body
fails. -/
theorem onAccess_error (hd : d.Traced e base) (hs : Sees base s ρ) {v : Value}
    (hfree : base.isHostFree v = true) {x : Failure}
    (hrun : d.onAccess v s = some (.error x, s')) :
    ∃ id t, v = .object id ∧ s.world.template? id = some t ∧
      e.BodyOrigin t none none
        (Session.withGlobals ⟨s.world.record (.applied (.object id)), s.stack⟩ t) x := by
  cases v with
  | object id =>
    obtain ⟨t, ht⟩ := Option.isSome_iff_exists.mp hfree
    have ht' : s.world.template? id = some t := hs.grows.template?_eq ht
    have hhook : d.hook id s = some (.ok none, s) := by
      obtain ⟨f, room, hle, hserves⟩ := hd.served
      obtain ⟨nested, hserves⟩ := hserves s.stack.level
      cases hd' : d.hook id s with
      | none =>
        have hnever : d.onAccess (.object id) s = none := Run.bind_unfinished hd'
        rw [hnever] at hrun
        cases hrun
      | some q =>
        rw [← hle.hook id s q hd', hserves.hook id s (Option.isSome_iff_exists.mpr ⟨t, ht'⟩)]
    rw [d.onAccess_template hhook ht'] at hrun
    have hnoted : Sees base ⟨s.world.record (.applied (.object id)), s.stack⟩ ρ :=
      hs.grow (World.Noted.grows (.record s.world rfl)) rfl
    exact ⟨id, t, rfl, ht', hd.body ht hnoted hrun⟩
  | function id => cases hfree
  | none | bool b | int n | float y | str text | list items | map m => cases hrun

/-- **A look-up that fails** does not find the name, or finds a template whose body fails. -/
theorem lookup_error (hd : d.Traced e base) (hs : Sees base s ρ) {name : String} {x : Failure}
    (hrun : d.lookup name true s = some (.error x, s')) :
    (x = .missingKey name ∧
      ∀ layer ∈ s.stack.layers, ∃ w, e.askLayer layer name s.world = some (.ok none, w)) ∨
    ∃ t s₁, e.Invokes s name t s₁ ∧ e.BodyOrigin t none none (s₁.withGlobals t) x := by
  obtain ⟨f, room, hle, hserves⟩ := hd.served
  obtain ⟨nested, hserves⟩ := hserves s.stack.level
  have hfetch {r : Except Failure Value} {s₁ : Session κ σ}
      (hx : (d.fetch s.stack name).onWorld s = some (r, s₁)) :
      r = found name (ρ name) ∧ s.Restored s.world.maps.size room s₁ :=
    (hserves.fetch hs name).of_le (.onWorld (hle.fetch s.stack name)) hx
  change ((d.fetch s.stack name).onWorld >>= d.onAccess) s = _ at hrun
  rcases Run.of_bind_error hrun with hmissed | ⟨v, s₁, hfound, haccess⟩
  · obtain ⟨hx, -⟩ := hfetch hmissed
    cases hname : ρ name with
    | some v => rw [hname] at hx; cases hx
    | none =>
      rw [hname] at hx
      cases hx
      have habsent := World.answer_eq_none (hs.visible ▸ hname)
      refine .inl ⟨rfl, fun layer hlayer => ?_⟩
      obtain ⟨w, hask, -⟩ := hd.views.askLayer hs.grows (hs.readable layer hlayer) name
      rw [habsent layer hlayer] at hask
      exact ⟨w, hask⟩
  · obtain ⟨hv, hrestored⟩ := hfetch hfound
    have hfree : base.isHostFree v = true := by
      cases hname : ρ name with
      | none => rw [hname] at hv; cases hv
      | some value =>
        rw [hname] at hv
        cases hv
        exact hs.hostFree name v hname
    obtain ⟨id, t, rfl, ht, hbody⟩ := hd.onAccess_error (hrestored.sees hs) hfree haccess
    obtain ⟨w, hfetched, rfl⟩ := Run.of_onWorld hfound
    exact .inr ⟨t, _, ⟨id, w, hd.le.fetch s.stack name s.world _ hfetched, ht, rfl⟩, hbody⟩

end

/-! ## Blocks -/

mutual

/-- **A failure of blocks has its origin**, by the recursion of the blocks: the first of them fails,
or it is passed and the failure is that of the others. -/
theorem renderOnto_origin (hd : d.Traced e base) (hbase : base.HostFree limit)
    {s s' : Session κ σ} {ρ : Scope} (hs : Sees base s ρ) {out : String} {x : Failure} :
    (blocks : List (Block κ)) → Block.areHostFree blocks = true →
      d.renderOnto out blocks s = some (.error x, s') → e.Origin s blocks x
  | [], _, hrun => nomatch hrun
  | block :: rest, hfree, hrun => by
    simp only [Block.areHostFree, Bool.and_eq_true] at hfree
    change (d.renderBlock out block >>= fun out => d.renderOnto out rest) s = _ at hrun
    rcases Run.of_bind_error hrun with hblock | ⟨out', s₁, hblock, hrest⟩
    · exact renderBlock_origin hd hbase hs rest block hfree.1 hblock
    · have hs₁ := hd.renderBlock_sees hbase hs hfree.1 hblock
      have hreached : e.Reaches s (block :: rest) s₁ rest :=
        .past (hd.le.renderBlock out block s _ hblock) (.here _ _)
      exact hreached.origin (renderOnto_origin hd hbase hs₁ rest hfree.2 hrest)

theorem renderBlock_origin (hd : d.Traced e base) (hbase : base.HostFree limit)
    {s s' : Session κ σ} {ρ : Scope} (hs : Sees base s ρ) (rest : List (Block κ)) {out : String}
    {x : Failure} : (block : Block κ) → block.isHostFree = true →
      d.renderBlock out block s = some (.error x, s') → e.Origin s (block :: rest) x
  | .text _, _, hrun => nomatch hrun
  | .insert (.name name), _, hrun => by
    have hlookup : d.lookup name true s = some (.error x, s') := by
      rcases Run.of_bind_error hrun with hlookup | ⟨v, s₁, -, htext⟩
      · exact hlookup
      · cases htext
    rcases hd.lookup_error hs hlookup with ⟨rfl, habsent⟩ | ⟨t, s₁, hinvoked, hbody⟩
    · exact .missing (.here _ _) habsent
    · exact hbody.origin (.insert s name) hinvoked rest
  | .insert (.code _), hfree, _ | .code _, hfree, _ => nomatch hfree
  | .choose branches otherwise, hfree, hrun => by
    simp only [Block.isHostFree, Bool.and_eq_true] at hfree
    rw [renderBlock_choose_apply] at hrun
    split at hrun
    · cases hrun
    rename_i r s₁ hbranches
    cases hrun
    refine renderBranches_origin hd hbase hs.push_kept hs.keptOnTop rest (.nil _)
      (fun hpassed hs₁ hrun => ?_) branches rfl hfree.1 hbranches
    obtain ⟨body, hbody, horigin⟩ := renderOtherwise_origin hd hbase hs₁ otherwise hfree.2 hrun
    subst hbody
    have hreached : e.Reaches s (.choose branches (some body) :: rest) _ body :=
      .otherwise hpassed (.here _ _)
    exact hreached.origin horigin

/-- The branches that are left, where those before them were passed over. -/
theorem renderBranches_origin (hd : d.Traced e base) (hbase : base.HostFree limit)
    {s₀ s s' : Session κ σ} {ρ : Scope} (hs : Sees base s ρ)
    (hk : KeptOnTop base (s₀.world.newMap ∅).1 s) (rest : List (Block κ)) {out : String}
    {x : Failure} {otherwise : Option (List (Block κ))} {y : Run (Session κ σ) String}
    {before branches : List (Expr κ × List (Block κ))}
    (passed : e.PassesOver (s₀.world.newMap ∅).1 before s₀.enterChoice s)
    (ho : ∀ {s s' : Session κ σ} {ρ : Scope},
      e.PassesOver (s₀.world.newMap ∅).1 branches s₀.enterChoice s → Sees base s ρ →
      y s = some (.error x, s') → e.Origin s₀ (.choose branches otherwise :: rest) x) :
    (left : List (Expr κ × List (Block κ))) → branches = before ++ left →
      Block.branchesAreHostFree left = true →
      d.renderBranches out (s₀.world.newMap ∅).1 y left s = some (.error x, s') →
      e.Origin s₀ (.choose branches otherwise :: rest) x
  | [], hsplit, _, hrun => ho (by rw [hsplit, List.append_nil]; exact passed) hs hrun
  | (.code _, _) :: _, _, hfree, _ => nomatch hfree
  | (.name name, body) :: left, hsplit, hfree, hrun => by
    simp only [Block.branchesAreHostFree, Bool.and_eq_true] at hfree
    rcases Run.of_bind_error hrun with hfails | ⟨held, s₁, hholds, hrun⟩
    · -- a miss of the name would not fail, so a template has failed
      obtain ⟨hlookup, hne⟩ := holds_eq_error hfails
      obtain ⟨t, s₁, hinvoked, hbody⟩ :=
        (hd.lookup_error hs hlookup).resolve_left fun h => hne h.1
      subst hsplit
      exact hbody.origin (.condition passed name) hinvoked rest
    · have hheld := hd.le.holds (s₀.world.newMap ∅).1 (.name name) s _ hholds
      obtain ⟨⟨ρ', hs₁⟩, hk₁⟩ := hd.holds_sees hs hk hholds
      cases held with
      | true =>
        subst hsplit
        have hreached : e.Reaches s₀
            (.choose (before ++ (.name name, body) :: left) otherwise :: rest) s₁ body :=
          .branch passed hheld (.here _ _)
        exact hreached.origin (renderOnto_origin hd hbase hs₁ body hfree.1.2 hrun)
      | false =>
        exact renderBranches_origin hd hbase hs₁ hk₁ rest (passed.append (.cons hheld (.nil _)))
          ho left (by rw [hsplit, List.append_assoc]; rfl) hfree.2 hrun

theorem renderOtherwise_origin (hd : d.Traced e base) (hbase : base.HostFree limit)
    {s s' : Session κ σ} {ρ : Scope} (hs : Sees base s ρ) {out : String} {x : Failure} :
    (otherwise : Option (List (Block κ))) → Block.otherwiseIsHostFree otherwise = true →
      d.renderOtherwise out otherwise s = some (.error x, s') →
      ∃ body, otherwise = some body ∧ e.Origin s body x
  | none, _, hrun => nomatch hrun
  | some body, hfree, hrun => ⟨body, rfl, renderOnto_origin hd hbase hs body hfree hrun⟩

end

/-! ## Templates -/

section

variable {s s' : Session κ σ} {ρ : Scope} {t : Template κ} {client : Option Value}
  {keywords : Option MapId}

/-- **A failure of the body of a template has its origin**: the body is refused, or it opens and its
blocks fail. -/
theorem renderContent_origin (hd : d.Traced e base) (hbase : base.HostFree limit)
    (hs : Sees base s ρ) (ht : t.HostFree limit base)
    (haccessor : clientTargets client = [] ∨ s.stack.accessor = none)
    (hclient : base.areHostFree (clientTargets client) = true)
    (hkeywords : ∀ m ∈ keywords, m.index < base.maps.size) {x : Failure}
    (hrun : d.renderContent t client keywords s = some (.error x, s')) :
    e.BodyOrigin t client keywords s x := by
  by_cases hrefused : t.nestingLimit < s.stack.level
  · rw [d.renderContent_refused hrefused] at hrun
    cases hrun
    exact .refused hrefused
  · obtain ⟨s₁, g, hopen, -, -, -, -, hs₁⟩ :=
      Template.enterLayers_sees hbase hs ht haccessor hclient hkeywords
    have hopened : Sees base { s₁ with world := s₁.world.record (.opened s₁.stack.level) }
        (t.bodyScope base s.stack.reserved client keywords ρ) :=
      hs₁.grow (.of_journal _ s₁.world _) rfl
    rw [d.renderContent_apply hrefused, guarded_apply, Run.bind_ok hopen, Run.onSession_apply]
      at hrun
    unfold inBody at hrun
    cases hblocks : d.renderAll t.blocks
        { s₁ with world := s₁.world.record (.opened s₁.stack.level) } with
    | none => simp only [hblocks] at hrun; cases hrun
    | some p =>
      obtain ⟨r, s₂⟩ := p
      simp only [hblocks] at hrun
      cases hrun
      exact .inside ⟨hrefused, ⟨s₁, g⟩, hopen, rfl⟩
        (hd.renderOnto_origin hbase hopened t.blocks ht.blocks hblocks)

/-- A nested template fails as its body does, above its globals. -/
theorem renderNested_origin (hd : d.Traced e base) (hbase : base.HostFree limit)
    (hs : Sees base s ρ) (ht : t.HostFree limit base)
    (haccessor : clientTargets client = [] ∨ s.stack.accessor = none)
    (hclient : base.areHostFree (clientTargets client) = true)
    (hkeywords : ∀ m ∈ keywords, m.index < base.maps.size) {x : Failure}
    (hrun : d.renderNested t client keywords s = some (.error x, s')) :
    e.BodyOrigin t client keywords (s.withGlobals t) x := by
  unfold Dispatch.renderNested at hrun
  rw [withLayers_apply] at hrun
  split at hrun
  · cases hrun
  · rename_i r s₁ hbody
    cases hrun
    exact hd.renderContent_origin hbase (hs.push_mapping hbase ht.globals) ht haccessor hclient
      hkeywords hbody

end

end Traced

end Dispatch

/-- **The failures of templates have their origins**, by induction on the fuel: the body of a
template is rendered by the calls one level of fuel further in. -/
theorem Host.dispatch_traced (h : Host κ σ) {limit : Int64} {base : World κ σ}
    (hbase : base.HostFree limit) (fuel : Nat) {more : Nat} (hmore : fuel + 2 ≤ more) :
    (h.dispatch fuel).Traced (h.dispatch more) base := by
  have hle : (h.dispatch fuel).Le (h.dispatch more) := h.dispatch_le (by omega)
  have hserved : ∃ f room, (h.dispatch fuel).Le f ∧ f.ServesAll base room :=
    ⟨_, _, h.dispatch_le_shallow (.recursionLimit 0) fuel, h.shallow_serves _ hbase fuel⟩
  have hviews : (h.dispatch more).AnswersViews base := by
    obtain ⟨n, rfl⟩ := Nat.exists_eq_add_of_le' (Nat.le_of_add_left_le hmore)
    exact h.answersViews n hbase
  induction fuel with
  | zero => exact ⟨hle, hserved, hviews, fun _ _ hrun => nomatch hrun⟩
  | succ fuel ih =>
    refine ⟨hle, hserved, hviews, fun {id t s s' ρ x} ht hs hrun => ?_⟩
    have htraced := ih (by omega) (h.dispatch_le (by omega))
      ⟨_, _, h.dispatch_le_shallow (.recursionLimit 0) fuel, h.shallow_serves _ hbase fuel⟩
    rw [h.apply_template fuel (hs.grows.template?_eq ht)] at hrun
    have hnested : (h.dispatch fuel).renderNested t none none s = some (.error x, s') := by
      rcases Run.of_bind_error hrun with hnested | ⟨text, s₁, -, htext⟩
      · exact hnested
      · cases htext
    have hnone : ∀ m ∈ (none : Option MapId), m.index < base.maps.size := nofun
    exact htraced.renderNested_origin hbase hs (hbase.templates id t ht) (.inl rfl) rfl hnone
      hnested

/-! ## Main theorem -/

/-- **Every failure of a render without a host has its origin.** If blocks fail, then rendering them
comes to a name that is inserted and that no layer defines there, and the failure is that this name
is missing; or it comes to a template that is nested deeper than its limit, and the failure is that
limit. So it is for a template, inside another render and on its own, which may also be refused
itself. A name that is missing is inserted by the blocks or by those of a template that they come
to: one that only occurs as a condition is never missing. -/
theorem Host.failure_origin (h : Host κ σ) {limit : Int64} {w : World κ σ}
    (hw : w.HostFree limit) (fuel : Nat) (e : Failure) :
    (∀ st : Stack κ, (∀ layer ∈ st.layers, w.layerIsHostFree layer = true) →
      (∀ blocks s', Block.areHostFree blocks = true →
        (h.dispatch fuel).renderAll blocks ⟨w, st⟩ = some (.error e, s') →
        (h.dispatch (fuel + 2)).Origin ⟨w, st⟩ blocks e ∧
        ∀ name, e = .missingKey name → (h.dispatch (fuel + 2)).Inserts ⟨w, st⟩ blocks name) ∧
      ∀ t client keywords s', t.HostFree limit w → st.accessor = none →
        (∀ v ∈ client, w.isHostFree v = true) → (∀ m ∈ keywords, m.index < w.maps.size) →
        (h.dispatch fuel).renderNested t client keywords ⟨w, st⟩ = some (.error e, s') →
        (h.dispatch (fuel + 2)).BodyOrigin t client keywords (Session.withGlobals ⟨w, st⟩ t) e ∧
        ∀ name, e = .missingKey name → ∃ s₁,
          t.Opens client keywords (Session.withGlobals ⟨w, st⟩ t) s₁ ∧
          (h.dispatch (fuel + 2)).Inserts s₁ t.blocks name) ∧
    ∀ t client mapping keywords w', t.HostFree limit w → t.settings.accessor = none →
      (∀ v ∈ client, w.isHostFree v = true) →
      (∀ layer ∈ mapping, w.layerIsHostFree layer = true) →
      (∀ m ∈ keywords, m.index < w.maps.size) →
      (h.dispatch fuel).render t client mapping keywords w = some (.error e, w') →
      (h.dispatch (fuel + 2)).BodyOrigin t client keywords ⟨w, t.ownStack client mapping⟩ e ∧
      ∀ name, e = .missingKey name → ∃ s₁,
        t.Opens client keywords ⟨w, t.ownStack client mapping⟩ s₁ ∧
        (h.dispatch (fuel + 2)).Inserts s₁ t.blocks name := by
  have htraced := h.dispatch_traced hw fuel (Nat.le_refl (fuel + 2))
  refine ⟨fun st hst => ?_, ?_⟩
  · have hsees : Sees w ⟨w, st⟩ (w.visible w st.layers) := hw.sees st hst
    refine ⟨fun blocks s' hblocks hrun => ?_,
      fun t client keywords s' ht haccessor hclient hkeywords hrun => ?_⟩
    · have horigin := htraced.renderOnto_origin hw hsees blocks hblocks hrun
      exact ⟨horigin, fun name hname => (hname ▸ horigin).inserts⟩
    · have horigin := htraced.renderNested_origin hw hsees ht (.inr haccessor)
        (World.areHostFree_clientTargets hclient) hkeywords hrun
      exact ⟨horigin, fun name hname => (hname ▸ horigin).inserts⟩
  · intro t client mapping keywords w' ht haccessor hclient hmapping hkeywords hrun
    rw [Dispatch.render_apply] at hrun
    split at hrun
    · cases hrun
    · rename_i r s₁ hbody
      cases hrun
      have horigin := htraced.renderContent_origin hw (t.ownStack_sees hw ht client hmapping) ht
        (.inr ((t.ownStack_accessor client mapping).trans haccessor))
        (World.areHostFree_clientTargets hclient) hkeywords hbody
      exact ⟨horigin, fun name hname => (hname ▸ horigin).inserts⟩

/-- A template that inserts a name that nothing defines. -/
def lostTemplate : Template Unit where
  name := "lost"
  blocks := [.text "a ", .insert (.name "gone")]
  globals := ⟨1⟩
  vars := ⟨1⟩

def lostWorld : World Unit Unit where
  maps := #[.ofList [("lost", .object ⟨0⟩)], ∅]
  objects := #[.template lostTemplate]
  host := ()

/-- The name as a condition, and otherwise the template. -/
def lostBlocks : List (Block Unit) :=
  [.choose [(.name "gone", [])] (some [.insert (.name "lost")])]

theorem lostWorld_hostFree : lostWorld.HostFree 200 := by
  have hlost : lostTemplate.HostFree 200 lostWorld := ⟨by decide, by decide, by decide, by decide⟩
  refine ⟨by decide, fun id t ht => ?_⟩
  obtain ⟨_ | i⟩ := id
  · cases ht
    exact hlost
  · cases ht

/-- The name is missing where the template inserts it, and not where it is a condition. -/
theorem lostWorld_failure_origin :
    lostWorld.HostFree 200 ∧ Block.someInserts "gone" lostBlocks = false ∧
    ∃ s', (silentHost.dispatch 2).renderAll lostBlocks
        ⟨lostWorld, { layers := [.mapping ⟨0⟩] }⟩ = some (.error (.missingKey "gone"), s') ∧
      (silentHost.dispatch 4).Origin ⟨lostWorld, { layers := [.mapping ⟨0⟩] }⟩ lostBlocks
        (.missingKey "gone") ∧
      (silentHost.dispatch 4).Inserts ⟨lostWorld, { layers := [.mapping ⟨0⟩] }⟩ lostBlocks
        "gone" := by
  have horigin := (Host.failure_origin silentHost lostWorld_hostFree 2 (.missingKey "gone")).1
    { layers := [.mapping ⟨0⟩] } (by decide)
  have hrun : ∃ s', (silentHost.dispatch 2).renderAll lostBlocks
      ⟨lostWorld, { layers := [.mapping ⟨0⟩] }⟩ = some (.error (.missingKey "gone"), s') :=
    ⟨_, rfl⟩
  obtain ⟨s', hs'⟩ := hrun
  obtain ⟨hmissing, hinserts⟩ := horigin.1 lostBlocks s' rfl hs'
  exact ⟨lostWorld_hostFree, rfl, s', hs', hmissing, hinserts "gone" rfl⟩

end LayeredScope
