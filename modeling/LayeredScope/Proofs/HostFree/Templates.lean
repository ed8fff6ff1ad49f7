import LayeredScope.Proofs.HostFree.Rendering
import LayeredScope.Proofs.Walk

/-!
# Host-free templates

* `Host.answersViews` — with a little fuel, a view on a value without a host answers: the value has
  no attribute of any name.
* `Dispatch.Serves.renderContent`, `renderNested` — a template that is not refused computes the
  meaning of its blocks, in the scope that its own layers give.
* `Host.dispatch_serves` — **the calls serve rendering at every level**, by induction on the room
  that is left for bodies in each other: a template that is entered has one room less.
-/

namespace LayeredScope

variable {κ σ α : Type}

/-! ## Views -/

/-- A value without a host has no attributes. -/
theorem Host.readAttr_hostFree (h : Host κ σ) (fuel : Nat) {w : World κ σ} {v : Value}
    (hv : w.isHostFree v = true) (name : String) :
    ∃ typeName, (h.dispatch (fuel + 1)).readAttr v name w =
      some (.error (.attributeNotFound typeName name), w) := by
  cases v with
  | object id =>
    obtain ⟨t, ht⟩ := Option.isSome_iff_exists.mp hv
    refine ⟨(w.object id).typeName, ?_⟩
    have hobject := World.template?_eq_some.mp ht
    show Answer.readAttr h (h.dispatch fuel) (.object id) name w = _
    simp only [Answer.readAttr, Run.bind_ok (Run.get_apply w), hobject]
    rfl
  | function id => cases hv
  | none | bool b | int n | float x | str s | list items | map m => exact ⟨_, rfl⟩

/-- So a view that reads one finds nothing. -/
theorem Host.viewRead_hostFree (h : Host κ σ) (fuel : Nat) {w : World κ σ} {v : ObjectView κ}
    (haccessor : v.accessor = none) (htarget : w.isHostFree v.target = true) (id : ObjectId)
    (key : String) :
    (h.dispatch (fuel + 1)).viewRead id v key w =
      some (.ok none, w.record (.read v.target key [])) := by
  have hnoted : w.Grows (w.record (.read v.target key [])) := World.Noted.grows (.record w rfl)
  obtain ⟨typeName, hattr⟩ := h.readAttr_hostFree fuel (hnoted.isHostFree v.target htarget) key
  have hplain : (h.dispatch (fuel + 1)).guardedRead v.accessor v.target key w =
      (h.dispatch (fuel + 1)).readAttr v.target key (w.record (.read v.target key [])) := by
    rw [haccessor]
    rfl
  rw [← hplain] at hattr
  unfold Dispatch.viewRead
  rw [Run.bind_ok (Run.attempt_eq hattr)]
  rfl

/-- It answers from what it remembers and with its text, and notes at most the read. -/
theorem Host.viewAnswer_hostFree (h : Host κ σ) (fuel : Nat) {limit : Int64} {base w : World κ σ}
    (hbase : base.HostFree limit) (hw : base.Grows w) {v : ObjectView κ}
    (haccessor : v.accessor = none) (htarget : base.isHostFree v.target = true) (id : ObjectId)
    (key : String) :
    ∃ w', (h.dispatch (fuel + 1)).viewAnswer id v key w = some (.ok (v.answer base key), w') ∧
      w.Noted w' := by
  unfold ObjectView.answer Dispatch.viewAnswer
  cases v.memory.get? key with
  | some value => exact ⟨w, rfl, .refl w⟩
  | none =>
    cases v.reserved.kindOf key with
    | text =>
      refine ⟨w, ?_, .refl w⟩
      dsimp only
      rw [Run.gets_apply, hw.display_eq hbase htarget]
      rfl
    | hidden => exact ⟨w, rfl, .refl w⟩
    | visible =>
      have hfree : w.isHostFree v.target = true := World.KeepsBelow.isHostFree hw v.target htarget
      exact ⟨w.record (.read v.target key []), h.viewRead_hostFree fuel haccessor hfree id key,
        .record w rfl⟩

theorem Host.answersViews (h : Host κ σ) (fuel : Nat) {limit : Int64} {base : World κ σ}
    (hbase : base.HostFree limit) : (h.dispatch (fuel + 2)).AnswersViews base := by
  intro w id v key hw hv haccessor htarget
  have hobject := World.view?_eq_some.mp hv
  have hread : (h.dispatch (fuel + 2)).readItem id key w =
      inRead id key ((h.dispatch (fuel + 1)).viewAnswer id v key) w := by
    show Answer.readItem h (h.dispatch (fuel + 1)) id key w = _
    simp only [Answer.readItem, Run.bind_ok (Run.get_apply w), hobject]
    simp only [Dispatch.viewGet, Run.bind_ok (Run.get_apply w), hv]
  have hasked : w.Noted (w.record (.asked id key)) := .record w rfl
  obtain ⟨w', hanswer, hnoted⟩ :=
    h.viewAnswer_hostFree fuel hbase (hw.trans hasked.grows) haccessor htarget id key
  refine ⟨w'.record (.answered id key (.ok (v.answer base key))), ?_,
    (hasked.trans hnoted).trans (.record w' rfl)⟩
  rw [hread]
  unfold inRead
  rw [hanswer]

/-! ## The views of a client -/

/-- Issue a view of a value and enter it. -/
def Frame.enterView (target : Value) (f : Frame κ σ) : Frame κ σ :=
  let p := f.world.newView target f.stack.accessor f.stack.reserved
  Frame.enter (.object p.1) { f with world := p.2 }

theorem enterViews_cons (target : Value) (rest : List Value) (f : Frame κ σ) :
    enterViews (target :: rest) f = enterViews rest (f.enterView target) := rfl

theorem Sees.enterView {base : World κ σ} {f : Frame κ σ} {ρ : Scope}
    (hs : Sees base f.toSession ρ) (haccessor : f.stack.accessor = none) {target : Value}
    (htarget : base.isHostFree target = true) :
    Sees base (f.enterView target).toSession (base.viewed f.stack.reserved ρ [target]) := by
  unfold Frame.enterView
  rw [haccessor]
  exact hs.push_view htarget f.stack.reserved

/-- Entering views pushes one for each value, and notes nothing in the journal. -/
theorem enterViews_sees {base : World κ σ} (targets : List Value) {f : Frame κ σ} {ρ : Scope}
    (hs : Sees base f.toSession ρ) (haccessor : targets = [] ∨ f.stack.accessor = none)
    (hfree : base.areHostFree targets = true) :
    ∃ w block, enterViews targets f =
        some (.ok (), ⟨⟨w, { f.stack with layers := block ++ f.stack.layers }⟩,
          { f.guard with entered := f.guard.entered + block.length }⟩) ∧
      f.world.Grows w ∧ w.journal = f.world.journal ∧
      Sees base ⟨w, { f.stack with layers := block ++ f.stack.layers }⟩
        (base.viewed f.stack.reserved ρ targets) := by
  induction targets generalizing f ρ with
  | nil => exact ⟨f.world, [], rfl, .refl _, rfl, hs⟩
  | cons target rest ih =>
    have hnone : f.stack.accessor = none := haccessor.resolve_left (List.cons_ne_nil _ _)
    simp only [World.areHostFree, Bool.and_eq_true] at hfree
    rw [enterViews_cons]
    obtain ⟨w, block, hrest, hgrows, hjournal, hsees⟩ := ih (hs.enterView hnone hfree.1)
      (.inr hnone) hfree.2
    have hlayers : block ++ (f.enterView target).stack.layers =
        (block ++ [.object ⟨f.world.objects.size⟩]) ++ f.stack.layers := by
      rw [List.append_assoc]
      rfl
    have hcount : (f.enterView target).guard.entered + block.length =
        f.guard.entered + (block ++ [Layer.object ⟨f.world.objects.size⟩]).length := by
      show f.guard.entered + 1 + block.length = _
      rw [List.length_append, List.length_singleton]
      omega
    rw [hlayers] at hrest hsees
    rw [hcount] at hrest
    exact ⟨w, block ++ [Layer.object ⟨f.world.objects.size⟩], hrest,
      (World.Grows.newObject f.world _).trans hgrows, hjournal, hsees⟩

/-! ## Bodies -/

/-- The scope of the body of a template: the views of the client, the variables and the keywords lie
over what is there when it begins. -/
def Template.bodyScope (world : World κ σ) (t : Template κ) (reserved : Reserved)
    (client : Option Value) (keywords : Option MapId) (ρ : Scope) : Scope :=
  world.layered (world.viewed reserved ρ (clientTargets client)) (t.vars :: keywords.toList)

/-- Too deep a body is refused before anything is done. -/
theorem Dispatch.renderContent_refused (d : Dispatch κ σ) {t : Template κ} {s : Session κ σ}
    (h : t.nestingLimit < s.stack.level) (client : Option Value) (keywords : Option MapId) :
    d.renderContent t client keywords s = some (.error (.recursionLimit t.nestingLimit), s) := by
  unfold Dispatch.renderContent
  rw [Run.bind_ok (Run.get_apply s), if_pos h]
  rfl

theorem Dispatch.renderNested_refused (d : Dispatch κ σ) {t : Template κ} {s : Session κ σ}
    (h : t.nestingLimit < s.stack.level) (client : Option Value) (keywords : Option MapId) :
    d.renderNested t client keywords s = some (.error (.recursionLimit t.nestingLimit), s) := by
  have hrefused := d.renderContent_refused (s := ⟨s.world, s.stack.pushAll [.mapping t.globals]⟩)
    h client keywords
  have hrun := withLayers_eq hrefused rfl
  exact hrun

/-- The mappings that a body brings: its variables, unless there are none, and the keywords. -/
def Template.bodyMaps (world : World κ σ) (t : Template κ) (keywords : Option MapId) : List MapId :=
  (if (world.entries t.vars).isEmpty then [] else [t.vars]) ++ keywords.toList

theorem Template.map_bodyMaps (world : World κ σ) (t : Template κ) (keywords : Option MapId) :
    (t.bodyMaps world keywords).map Layer.mapping =
      (if (world.entries t.vars).isEmpty then [] else [.mapping t.vars]) ++
        (keywords.map Layer.mapping).toList := by
  unfold bodyMaps
  split <;> cases keywords <;> rfl

theorem Template.layered_bodyMaps (world : World κ σ) (t : Template κ) (keywords : Option MapId)
    (ρ : Scope) :
    world.layered ρ (t.bodyMaps world keywords) = world.layered ρ (t.vars :: keywords.toList) := by
  unfold bodyMaps
  split
  · rename_i hempty
    exact (World.layered_cons_of_isEmpty hempty ρ keywords.toList).symm
  · rfl

/-- The layers of a body make its scope visible, and the guard takes exactly them off again. -/
theorem Template.enterLayers_sees {base : World κ σ} {limit : Int64} (hbase : base.HostFree limit)
    {s : Session κ σ} {ρ : Scope} (hs : Sees base s ρ) {t : Template κ}
    (ht : t.HostFree limit base) {client : Option Value} {keywords : Option MapId}
    (haccessor : clientTargets client = [] ∨ s.stack.accessor = none)
    (hclient : base.areHostFree (clientTargets client) = true)
    (hkeywords : ∀ m ∈ keywords, m.index < base.maps.size) :
    ∃ s' g, t.enterLayers client keywords ⟨s, {}⟩ = some (.ok (), ⟨s', g⟩) ∧
      g.close s'.stack = s.stack ∧ s.world.Grows s'.world ∧
      s'.world.journal = s.world.journal ∧ s'.stack.level = Stack.deeper s.stack.level ∧
      Sees base s' (t.bodyScope base s.stack.reserved client keywords ρ) := by
  have hdeepened : Sees base (Frame.deepen ⟨s, {}⟩).toSession ρ := hs.grow (.refl _) rfl
  obtain ⟨w, block, hviews, hgrows, hjournal, hsees⟩ :=
    enterViews_sees (clientTargets client) hdeepened haccessor hclient
  have hvars : w.entries t.vars = base.entries t.vars := hsees.grows.entries t.vars ht.vars
  have hissued : ∀ m ∈ t.bodyMaps base keywords, m.index < base.maps.size := by
    intro m hm
    rcases List.mem_append.mp hm with hm | hm
    · split at hm
      · cases hm
      · rw [List.mem_singleton.mp hm]
        exact ht.vars
    · exact hkeywords m (Option.mem_toList.mp hm)
  have hpushed := hsees.pushAll hbase _ hissued
  rw [Template.layered_bodyMaps, Stack.pushAll_eq] at hpushed
  refine ⟨⟨w, { s.stack with
      layers := ((t.bodyMaps base keywords).map .mapping).reverse ++ (block ++ s.stack.layers)
      level := Stack.deeper s.stack.level }⟩,
    ⟨0 + block.length + (t.bodyMaps base keywords).length, some s.stack.level⟩, ?_, ?_, hgrows,
    hjournal, rfl, hpushed⟩
  · unfold Template.enterLayers
    rw [Run.bind_ok (deepen_apply _), Run.bind_ok hviews, Run.bind_ok (Run.gets_apply _ _)]
    dsimp only
    rw [hvars, ← t.map_bodyMaps base keywords, enterAll_apply, Stack.pushAll_eq, List.length_map]
    rfl
  · rw [Guard.close_eq (List.append_assoc _ block s.stack.layers).symm]
    · rfl
    · show _ = 0 + block.length + _
      rw [List.length_append, List.length_reverse, List.length_map]
      omega

namespace Dispatch.Serves

variable {d : Dispatch κ σ} {base : World κ σ} {level : Int64} {room : Nat}
  {nested : Scope → Template κ → Except Failure String} {limit : Int64}

/-- **A body that is not refused computes the meaning of its blocks** in its own scope, and takes
one room. -/
theorem renderContent (hd : d.Serves base (Stack.deeper level) room nested)
    (hbase : base.HostFree limit) {s : Session κ σ} {ρ : Scope} (hs : Sees base s ρ)
    (hlevel : s.stack.level = level) {t : Template κ} (ht : t.HostFree limit base)
    (hlimit : ¬ t.nestingLimit < level) {client : Option Value} {keywords : Option MapId}
    (haccessor : clientTargets client = [] ∨ s.stack.accessor = none)
    (hclient : base.areHostFree (clientTargets client) = true)
    (hkeywords : ∀ m ∈ keywords, m.index < base.maps.size) :
    (d.renderContent t client keywords).Computes s.world.maps.size (room + 1) s
      (Meaning.renderOnto base nested (t.bodyScope base s.stack.reserved client keywords ρ) ""
        t.blocks) := by
  subst hlevel
  obtain ⟨s', g, hopen, hclose, hgrows, hjournal, hlevel, hsees⟩ :=
    Template.enterLayers_sees hbase hs ht haccessor hclient hkeywords
  have hopened : Sees base { s' with world := s'.world.record (.opened s'.stack.level) }
      (t.bodyScope base s.stack.reserved client keywords ρ) :=
    hsees.grow (.of_journal _ s'.world _) rfl
  have hbody := ((hd.renderOnto hbase hopened hlevel "" t.blocks ht.blocks).mono hgrows.maps_le
    (Nat.le_refl room)).inBody
  have hrun : (t.enterLayers client keywords >>= fun _ =>
      (inBody (d.renderAll t.blocks)).onSession) ⟨s, {}⟩ =
        (inBody (d.renderAll t.blocks)).onSession ⟨s', g⟩ := Run.bind_ok hopen
  exact .of_restored (.refl _ _ s) (d.renderContent_apply hlimit client keywords)
    (.guarded hrun hclose hgrows hjournal hbody)

/-- A nested template has its globals below its body. -/
theorem renderNested (hd : d.Serves base (Stack.deeper level) room nested)
    (hbase : base.HostFree limit) {s : Session κ σ} {ρ : Scope} (hs : Sees base s ρ)
    (hlevel : s.stack.level = level) {t : Template κ} (ht : t.HostFree limit base)
    (hlimit : ¬ t.nestingLimit < level) {client : Option Value} {keywords : Option MapId}
    (haccessor : clientTargets client = [] ∨ s.stack.accessor = none)
    (hclient : base.areHostFree (clientTargets client) = true)
    (hkeywords : ∀ m ∈ keywords, m.index < base.maps.size) :
    (d.renderNested t client keywords).Computes s.world.maps.size (room + 1) s
      (Meaning.renderOnto base nested
        (t.bodyScope base s.stack.reserved client keywords (base.layered ρ [t.globals])) ""
        t.blocks) :=
  .withLayers (hd.renderContent hbase (hs.push_mapping hbase ht.globals) hlevel ht hlimit haccessor
    hclient hkeywords)

end Dispatch.Serves

/-! ## Every level -/

/-- A template that is refused on no deeper level than `limit` leaves room for a level more. -/
theorem toInt_deeper {level limit : Int64} (h : level ≤ limit) (hmax : limit < Int64.maxValue) :
    (Stack.deeper level).toInt = level.toInt + 1 := by
  have hle := Int64.le_iff_toInt_le.mp h
  have hlt := Int64.lt_iff_toInt_lt.mp hmax
  rw [Int64.toInt_maxValue] at hlt
  have hne : level ≠ Int64.maxValue := by
    intro heq
    rw [heq, Int64.toInt_maxValue] at hle
    omega
  have hmin := level.le_toInt
  unfold Stack.deeper
  rw [if_neg hne, Int64.toInt_add, Int64.toInt_one]
  exact Int.bmod_eq_of_le (by omega) (by omega)

/-- A template does not answer for itself. -/
theorem Host.hook_template (h : Host κ σ) (fuel : Nat) {id : ObjectId} {s : Session κ σ}
    (hid : (s.world.template? id).isSome) :
    (h.dispatch (fuel + 1)).hook id s = some (.ok none, s) := by
  obtain ⟨t, ht⟩ := Option.isSome_iff_exists.mp hid
  have hobject := World.template?_eq_some.mp ht
  show Answer.hook h (h.dispatch fuel) id s = _
  simp only [Answer.hook, Run.bind_ok (Run.get_apply s), hobject]
  rfl

/-- An invoked template is rendered by the calls one level of fuel further in. -/
theorem Host.apply_template (h : Host κ σ) (fuel : Nat) {id : ObjectId} {t : Template κ}
    {s : Session κ σ} (ht : s.world.template? id = some t) (client : Option Value) :
    (h.dispatch (fuel + 1)).apply (.object id) client s =
      ((h.dispatch fuel).renderNested t client none >>= fun text => pure (.str text)) s := by
  have hobject := World.template?_eq_some.mp ht
  show Answer.apply h (h.dispatch fuel) (.object id) client s = _
  simp only [Answer.apply, Run.bind_ok (Run.get_apply s), hobject]

theorem Host.apply_refused (h : Host κ σ) (fuel : Nat) {id : ObjectId} {t : Template κ}
    {s : Session κ σ} (ht : s.world.template? id = some t)
    (hrefused : t.nestingLimit < s.stack.level) (client : Option Value) :
    (h.dispatch (fuel + 1)).apply (.object id) client s =
      some (.error (.recursionLimit t.nestingLimit), s) := by
  rw [h.apply_template fuel ht client]
  exact Run.bind_error (Dispatch.renderNested_refused _ hrefused client none)

/-- With a little fuel everything is served but templates, so only these are left to see to. -/
theorem Host.dispatch_serves_of (h : Host κ σ) {limit : Int64} {base : World κ σ}
    (hbase : base.HostFree limit) {fuel room : Nat} {level : Int64}
    {nested : Scope → Template κ → Except Failure String}
    (hnested : ∀ t s ρ, t.HostFree limit base → s.stack.level = level → Sees base s ρ →
      ((h.dispatch (fuel + 1)).renderNested t none none).Computes s.world.maps.size room s
        (nested ρ t)) :
    (h.dispatch (fuel + 2)).Serves base level room nested := by
  refine ⟨h.answersViews fuel hbase, fun id s hid => h.hook_template (fuel + 1) hid,
    fun id t s ρ ht hlevel hs => ?_⟩
  have hrun := h.apply_template (fuel + 1) (hs.grows.template?_eq ht) none
  exact .of_restored (.refl _ _ s) hrun
    ((hnested t s ρ (hbase.templates id t ht) hlevel hs).map Value.str)

/-- **The calls serve rendering at every level.** By induction on `room`: a template that is not
refused brings the level one closer to the limit, and its body is rendered by the calls one level
of fuel further in. -/
theorem Host.dispatch_serves (h : Host κ σ) {limit : Int64} (hlimit : limit < Int64.maxValue)
    {base : World κ σ} (hbase : base.HostFree limit) (room : Nat) {fuel : Nat} {level : Int64}
    (hfuel : room ≤ fuel) (hroom : limit.toInt < level.toInt + room) :
    (h.dispatch (fuel + 2)).Serves base level room
      (fun ρ t => Meaning.content base room level (ρ.within base t) t) := by
  induction room generalizing fuel level with
  | zero =>
    refine h.dispatch_serves_of hbase fun t s ρ ht hlevel hs => .of_eq ?_
    refine Dispatch.renderNested_refused _ ?_ none none
    have hle := Int64.le_iff_toInt_le.mp ht.nestingLimit
    rw [hlevel, Int64.lt_iff_toInt_lt]
    omega
  | succ room ih =>
    refine h.dispatch_serves_of hbase fun t s ρ ht hlevel hs => ?_
    simp only [Meaning.content]
    by_cases hrefused : t.nestingLimit < level
    · rw [if_pos hrefused]
      exact .of_eq (Dispatch.renderNested_refused _ (hlevel ▸ hrefused) none none)
    · rw [if_neg hrefused]
      have hle := Int64.not_lt.mp hrefused
      have hdeeper := toInt_deeper (Int64.le_trans hle ht.nestingLimit) hlimit
      obtain ⟨fuel, rfl⟩ := Nat.exists_eq_add_of_le' (Nat.le_of_add_left_le hfuel)
      have hserves : (h.dispatch (fuel + 2)).Serves base (Stack.deeper level) room _ :=
        ih (by omega) (by omega)
      exact hserves.renderNested hbase hs hlevel ht hrefused (.inl rfl) rfl nofun

end LayeredScope
