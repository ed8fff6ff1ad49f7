import LayeredScope.Host.Answer
import LayeredScope.Proofs.HostFree
import LayeredScope.Proofs.Nesting

/-!
# What a stack of host-free layers makes visible

Without a host a search has no effect but its entries in the journal, and its answer depends only
on the visible bindings. A stack then stands for a function from names to values.

* `Scope` — such a function; `Scope.cover` and `Scope.bind` lay bindings over it.
* `World.answer` — what a layer holds under a key, said without running anything.
* `Sees base s ρ` — the layers of the session `s`, in a world grown out of `base`, make `ρ` visible.
  **This is the invariant of all host-free rendering**: growth keeps it (`Sees.grow`), and each kind
  of layer that rendering pushes has one lemma.
* `Dispatch.AnswersViews`, `search_eq` — a search finds what is visible.
-/

namespace LayeredScope

variable {κ σ : Type}

/-- What each name stands for, if it stands for anything. -/
abbrev Scope := String → Option Value

namespace Scope

/-- What is found above, or else what is found below. -/
def cover (above below : Scope) : Scope := fun key => (above key).or (below key)

@[simp] theorem none_cover (ρ : Scope) : cover (fun _ => none) ρ = ρ := rfl

/-- One binding over a scope. -/
def bind (ρ : Scope) (name : String) (v : Value) : Scope :=
  fun key => if key = name then some v else ρ key

end Scope

/-- What a view without an accessor on a value without a host holds under a key: such a value has
no attributes. -/
def ObjectView.answer (v : ObjectView κ) (base : World κ σ) (key : String) : Option Value :=
  (v.memory.get? key).or <|
    match v.reserved.kindOf key with
    | .text => some (.str (base.display v.target))
    | .hidden | .visible => none

/-- An answer is remembered or a text. -/
theorem ObjectView.isHostFree_answer {v : ObjectView κ} {base : World κ σ}
    (hv : ∀ entry ∈ v.memory.toList, base.isHostFree entry.2 = true) {key : String} {value : Value}
    (h : v.answer base key = some value) : base.isHostFree value = true := by
  unfold answer at h
  cases hm : v.memory.get? key with
  | some remembered =>
    rw [hm] at h
    cases h
    exact hv _ (Entries.mem_of_get? hm)
  | none =>
    rw [hm, Option.none_or] at h
    split at h <;> cases h
    rfl

namespace World

/-- What a layer holds under a key, where texts are those of the world `base`. -/
def answer (base w : World κ σ) (layer : Layer) (key : String) : Option Value :=
  match layer with
  | .mapping m => (w.entries m).get? key
  | .object id => (w.view? id).bind (·.answer base key)
  | .sealed _ => none

/-- What a list of layers makes visible, the newest first. -/
def visible (base w : World κ σ) : List Layer → Scope
  | [] => fun _ => none
  | layer :: older => Scope.cover (base.answer w layer) (visible base w older)

/-- Mappings over a scope, the first one lowest. -/
def layered (w : World κ σ) (ρ : Scope) (ms : List MapId) : Scope :=
  ms.foldl (fun ρ m => Scope.cover (w.entries m).get? ρ) ρ

/-- Fresh views over a scope, the first one lowest. -/
def viewed (w : World κ σ) (reserved : Reserved) (ρ : Scope) (targets : List Value) : Scope :=
  targets.foldl (fun ρ target =>
    Scope.cover (({ target, accessor := none, reserved, memory := ∅ } : ObjectView κ).answer w) ρ) ρ

/-- A mapping without entries makes no difference. -/
theorem layered_cons_of_isEmpty {w : World κ σ} {m : MapId} (h : (w.entries m).isEmpty = true)
    (ρ : Scope) (ms : List MapId) : w.layered ρ (m :: ms) = w.layered ρ ms := by
  have hnone : (w.entries m).get? = fun _ => none := funext (Entries.isEmpty_iff.mp h)
  show w.layered (Scope.cover (w.entries m).get? ρ) ms = _
  rw [hnone, Scope.none_cover]

/-- A layer of `w` that a search can read without a host, where values are those of `base`. -/
def Readable (base w : World κ σ) : Layer → Prop
  | .mapping m => m.index < w.maps.size
  | .object id => ∃ v, w.view? id = some v ∧ v.accessor = none ∧ base.isHostFree v.target = true
  | .sealed _ => False

/-- Only the journal is longer, and not by a body. -/
def Noted (w w' : World κ σ) : Prop :=
  ∃ events, w' = { w with journal := events ++ w.journal } ∧ Event.NestedWithin 0 events

variable {base w w' w'' : World κ σ}

theorem Noted.refl (w : World κ σ) : w.Noted w := ⟨[], rfl, .nil 0⟩

theorem Noted.trans (h : w.Noted w') (h' : w'.Noted w'') : w.Noted w'' := by
  obtain ⟨events, rfl, he⟩ := h
  obtain ⟨events', rfl, he'⟩ := h'
  exact ⟨events' ++ events, by simp, he'.append he⟩

theorem Noted.record (w : World κ σ) {event : Event} (h : Event.openBodies [event] = 0) :
    w.Noted (w.record event) := ⟨[event], rfl, .single h 0⟩

theorem Noted.grows (h : w.Noted w') : w.Grows w' := by
  obtain ⟨events, rfl, -⟩ := h
  exact .of_journal _ w _

theorem Readable.keepsBelow {cut : Nat} {layer : Layer} (h : base.Readable w layer)
    (hw : w.KeepsBelow cut w') : base.Readable w' layer := by
  cases layer with
  | mapping m => exact Nat.lt_of_lt_of_le h hw.maps_le
  | object id =>
    obtain ⟨v, hv, hrest⟩ := h
    exact ⟨v, hw.view?_eq hv, hrest⟩
  | «sealed» v => exact h

/-- Readable layers go on answering the same, unless one is a mapping that may be written. -/
theorem Readable.answer_eq {cut : Nat} {layer : Layer} (h : base.Readable w layer)
    (hw : w.KeepsBelow cut w') (hcut : ∀ m, layer = .mapping m → m.index < cut) :
    base.answer w' layer = base.answer w layer := by
  funext key
  cases layer with
  | mapping m => simp only [World.answer, hw.entries m (hcut m rfl)]
  | object id =>
    obtain ⟨v, hv, -⟩ := h
    simp only [World.answer, hv, hw.view?_eq hv]
  | «sealed» v => rfl

theorem visible_eq {cut : Nat} {layers : List Layer} (h : ∀ layer ∈ layers, base.Readable w layer)
    (hw : w.KeepsBelow cut w') (hcut : ∀ m, .mapping m ∈ layers → m.index < cut) :
    base.visible w' layers = base.visible w layers := by
  induction layers with
  | nil => rfl
  | cons layer older ih =>
    have hlayer : base.answer w' layer = base.answer w layer :=
      (h layer List.mem_cons_self).answer_eq hw fun m hm => hcut m (by rw [hm]; exact .head _)
    have holder := ih (fun l hl => h l (List.mem_cons_of_mem _ hl))
      fun m hm => hcut m (List.mem_cons_of_mem _ hm)
    simp only [visible, hlayer, holder]

/-- What readable layers make visible stays the same while the world grows. -/
theorem Grows.visible_eq {layers : List Layer} (hw : w.Grows w')
    (h : ∀ layer ∈ layers, base.Readable w layer) :
    base.visible w' layers = base.visible w layers :=
  World.visible_eq h hw fun m hm => h (.mapping m) hm

end World

/-- The layers of `s` make `ρ` visible, whose values are those of the world `base`. -/
structure Sees (base : World κ σ) (s : Session κ σ) (ρ : Scope) : Prop where
  grows : base.Grows s.world
  readable : ∀ layer ∈ s.stack.layers, base.Readable s.world layer
  visible : base.visible s.world s.stack.layers = ρ
  hostFree : ∀ key v, ρ key = some v → base.isHostFree v = true

/-- The newest layer is the mapping of a choice: it is younger than `base` and than every mapping
under it, so that it can be written without a trace in what is below. -/
structure KeptOnTop (base : World κ σ) (kept : MapId) (s : Session κ σ) : Prop where
  top : ∃ below, s.stack.layers = .mapping kept :: below ∧
    ∀ m, .mapping m ∈ below → m.index < kept.index
  issued : kept.index < s.world.maps.size
  fresh : base.maps.size ≤ kept.index

namespace Sees

variable {base : World κ σ} {s s' : Session κ σ} {ρ : Scope}

theorem grow (h : Sees base s ρ) (hw : s.world.Grows s'.world)
    (hl : s'.stack.layers = s.stack.layers) : Sees base s' ρ where
  grows := h.grows.trans hw
  readable layer hmem := (h.readable layer (hl ▸ hmem)).keepsBelow hw
  visible := by rw [hl, hw.visible_eq h.readable, h.visible]
  hostFree := h.hostFree

/-- A layer is pushed, and its bindings lie over those that were visible. -/
theorem push (h : Sees base s ρ) {layer : Layer} (hr : base.Readable s.world layer)
    (hf : ∀ key v, base.answer s.world layer key = some v → base.isHostFree v = true) :
    Sees base { s with stack := s.stack.push layer } (Scope.cover (base.answer s.world layer) ρ)
    where
  grows := h.grows
  readable l hmem := by
    rcases List.mem_cons.mp hmem with rfl | hmem
    · exact hr
    · exact h.readable l hmem
  visible := by
    show Scope.cover _ (base.visible s.world s.stack.layers) = _
    rw [h.visible]
  hostFree key v hv := by
    cases ha : base.answer s.world layer key with
    | some value =>
      simp only [Scope.cover, ha, Option.some_or, Option.some.injEq] at hv
      rw [← hv]
      exact hf key value ha
    | none =>
      simp only [Scope.cover, ha, Option.none_or] at hv
      exact h.hostFree key v hv

/-- A mapping that was issued in `base` is pushed. -/
theorem push_mapping {limit : Int64} (hbase : base.HostFree limit) (h : Sees base s ρ) {m : MapId}
    (hm : m.index < base.maps.size) :
    Sees base { s with stack := s.stack.push (.mapping m) }
      (Scope.cover (base.entries m).get? ρ) := by
  have hentries : s.world.entries m = base.entries m := h.grows.entries m hm
  have hanswer : base.answer s.world (.mapping m) = (base.entries m).get? := by
    funext key
    simp only [World.answer, hentries]
  rw [← hanswer]
  refine h.push (Nat.lt_of_lt_of_le hm h.grows.maps_le) fun key v hv => ?_
  rw [hanswer] at hv
  exact hbase.get? hv

/-- So are several of them. -/
theorem pushAll {limit : Int64} (hbase : base.HostFree limit) (h : Sees base s ρ)
    (ms : List MapId) (hms : ∀ m ∈ ms, m.index < base.maps.size) :
    Sees base { s with stack := s.stack.pushAll (ms.map .mapping) } (base.layered ρ ms) := by
  induction ms generalizing s ρ with
  | nil => exact h
  | cons m ms ih =>
    exact ih (h.push_mapping hbase (hms m List.mem_cons_self))
      fun m' hm' => hms m' (List.mem_cons_of_mem _ hm')

/-- A view of a value is issued and pushed. -/
theorem push_view (h : Sees base s ρ) {target : Value} (htarget : base.isHostFree target = true)
    (reserved : Reserved) :
    Sees base ⟨(s.world.newView target none reserved).2,
        s.stack.push (.object (s.world.newView target none reserved).1)⟩
      (base.viewed reserved ρ [target]) := by
  have hgrown : Sees base ⟨(s.world.newView target none reserved).2, s.stack⟩ ρ :=
    h.grow (World.Grows.newObject s.world _) rfl
  have hview : (s.world.newView target none reserved).2.view?
      (s.world.newView target none reserved).1 =
        some { target, accessor := none, reserved, memory := ∅ } := by
    simp [World.view?_eq_some, World.newView, World.newObject, World.object, Array.getD]
  have hanswer : base.answer (s.world.newView target none reserved).2
      (.object (s.world.newView target none reserved).1) =
        ({ target, accessor := none, reserved, memory := ∅ } : ObjectView κ).answer base := by
    funext key
    simp only [World.answer, hview, Option.bind_some]
  have hreadable : base.Readable (s.world.newView target none reserved).2
      (.object (s.world.newView target none reserved).1) := ⟨_, hview, rfl, htarget⟩
  have hpushed := hgrown.push hreadable fun key v hv => by
    rw [hanswer] at hv
    exact ObjectView.isHostFree_answer (fun _ hentry => absurd hentry List.not_mem_nil) hv
  rw [hanswer] at hpushed
  exact hpushed

/-- The mapping of a choice is issued and pushed: it is empty, so nothing changes for a search. -/
theorem push_kept (h : Sees base s ρ) :
    Sees base ⟨(s.world.newMap ∅).2, s.stack.push (.mapping (s.world.newMap ∅).1)⟩ ρ := by
  have hgrown : Sees base ⟨(s.world.newMap ∅).2, s.stack⟩ ρ :=
    h.grow (World.Grows.newMap s.world ∅) rfl
  have hanswer : base.answer (s.world.newMap ∅).2 (.mapping (s.world.newMap ∅).1) =
      fun _ => none := by
    funext key
    simp only [World.answer, World.entries_newMap, Entries.get?_empty]
  have hreadable : base.Readable (s.world.newMap ∅).2 (.mapping (s.world.newMap ∅).1) := by
    simp [World.Readable, World.newMap]
  have hpushed := hgrown.push hreadable (by simp [hanswer])
  rw [hanswer, Scope.none_cover] at hpushed
  exact hpushed

/-- Right after that the mapping is on top. -/
theorem keptOnTop (h : Sees base s ρ) :
    KeptOnTop base (s.world.newMap ∅).1
      ⟨(s.world.newMap ∅).2, s.stack.push (.mapping (s.world.newMap ∅).1)⟩ where
  top := ⟨s.stack.layers, rfl, fun m hm => h.readable (.mapping m) hm⟩
  issued := by simp [World.newMap]
  fresh := h.grows.maps_le

/-- A name is bound in the mapping of a choice. -/
theorem bind (h : Sees base s ρ) {kept : MapId} (hk : KeptOnTop base kept s) {v : Value}
    (hv : base.isHostFree v = true) (name : String) :
    Sees base ⟨s.world.insert kept name v, s.stack⟩ (ρ.bind name v) := by
  obtain ⟨below, hlayers, hbelow⟩ := hk.top
  have hw : s.world.KeepsBelow kept.index (s.world.insert kept name v) :=
    .insert (Nat.le_refl _) name v
  refine ⟨h.grows.trans_keepsBelow hw hk.fresh, fun l hmem => (h.readable l hmem).keepsBelow hw,
    ?_, ?_⟩
  · have hreadable : ∀ l ∈ below, base.Readable s.world l :=
      fun l hmem => h.readable l (hlayers ▸ List.mem_cons_of_mem _ hmem)
    funext key
    rw [← h.visible, hlayers]
    simp only [World.visible, World.visible_eq hreadable hw hbelow, Scope.cover, Scope.bind,
      World.answer, World.entries_insert hk.issued, if_true, Entries.get?_insert]
    split <;> simp
  · intro key value hvalue
    simp only [Scope.bind] at hvalue
    split at hvalue
    · cases hvalue
      exact hv
    · exact h.hostFree key value hvalue

end Sees

/-- Host-free layers can be read, and answer with values without a host. -/
theorem World.HostFree.layer {limit : Int64} {w : World κ σ} (hw : w.HostFree limit)
    {layer : Layer} (hl : w.layerIsHostFree layer = true) :
    w.Readable w layer ∧
      ∀ key v, w.answer w layer key = some v → w.isHostFree v = true := by
  cases layer with
  | mapping m =>
    exact ⟨by simpa [World.layerIsHostFree, World.Readable] using hl, fun key v hv => hw.get? hv⟩
  | object id =>
    cases hv : w.view? id with
    | none => simp [World.layerIsHostFree, hv] at hl
    | some view =>
      simp only [World.layerIsHostFree, hv, Bool.and_eq_true, Option.isNone_iff_eq_none,
        List.all_eq_true] at hl
      refine ⟨⟨view, hv, hl.1.1, hl.1.2⟩, fun key v hanswer => ?_⟩
      simp only [World.answer, hv, Option.bind_some] at hanswer
      exact ObjectView.isHostFree_answer hl.2 hanswer
  | «sealed» v => cases hl

/-- A stack of host-free layers stands for what they make visible. -/
theorem World.HostFree.sees {limit : Int64} {w : World κ σ} (hw : w.HostFree limit)
    (st : Stack κ) {layers : List Layer} (hl : ∀ layer ∈ layers, w.layerIsHostFree layer = true) :
    Sees w ⟨w, { st with layers }⟩ (w.visible w layers) := by
  induction layers with
  | nil => exact ⟨.refl w, nofun, rfl, nofun⟩
  | cons layer older ih =>
    obtain ⟨hreadable, hanswer⟩ := hw.layer (hl layer List.mem_cons_self)
    exact (ih fun l hmem => hl l (List.mem_cons_of_mem _ hmem)).push hreadable hanswer

theorem KeptOnTop.grow {base : World κ σ} {kept : MapId} {s s' : Session κ σ}
    (h : KeptOnTop base kept s) (hw : s.world.maps.size ≤ s'.world.maps.size)
    (hl : s'.stack.layers = s.stack.layers) : KeptOnTop base kept s' :=
  ⟨hl ▸ h.top, Nat.lt_of_lt_of_le h.issued hw, h.fresh⟩

/-! ## Searching -/

/-- A view without an accessor on a value without a host answers as expected. -/
def Dispatch.AnswersViews (d : Dispatch κ σ) (base : World κ σ) : Prop :=
  ∀ w id v key, base.Grows w → w.view? id = some v → v.accessor = none →
    base.isHostFree v.target = true →
    ∃ w', d.readItem id key w = some (.ok (v.answer base key), w') ∧ w.Noted w'

theorem Dispatch.AnswersViews.askLayer {d : Dispatch κ σ} {base w : World κ σ}
    (hd : d.AnswersViews base) (hw : base.Grows w) {layer : Layer} (hl : base.Readable w layer)
    (key : String) :
    ∃ w', d.askLayer layer key w = some (.ok (base.answer w layer key), w') ∧ w.Noted w' := by
  cases layer with
  | mapping m => exact ⟨w, rfl, .refl w⟩
  | object id =>
    obtain ⟨v, hv, haccessor, htarget⟩ := hl
    obtain ⟨w', hread, hnoted⟩ := hd w id v key hw hv haccessor htarget
    refine ⟨w', ?_, hnoted⟩
    simp only [World.answer, hv, Option.bind_some]
    exact hread
  | «sealed» v => exact hl.elim

/-- **A search finds what the layers make visible**, and changes nothing but the journal. -/
theorem Dispatch.AnswersViews.search_eq {d : Dispatch κ σ} {base : World κ σ}
    (hd : d.AnswersViews base) (key : String) (layers : List Layer) {w : World κ σ}
    (hw : base.Grows w) (hl : ∀ layer ∈ layers, base.Readable w layer) :
    ∃ w', d.search key layers w = some (.ok (base.visible w layers key), w') ∧ w.Noted w' := by
  induction layers generalizing w with
  | nil => exact ⟨w, rfl, .refl w⟩
  | cons layer older ih =>
    have hrecord : w.Noted (w.record (.searched layer key)) := .record w rfl
    obtain ⟨w₁, hask, hasked⟩ := hd.askLayer (hw.trans hrecord.grows)
      ((hl layer List.mem_cons_self).keepsBelow hrecord.grows) key
    change d.askLayer layer key (w.record (.searched layer key)) =
      some (.ok (base.answer w layer key), w₁) at hask
    have hnoted : w.Noted w₁ := hrecord.trans hasked
    cases hanswer : base.answer w layer key with
    | some value =>
      rw [hanswer] at hask
      have hstep : d.search key (layer :: older) w = some (.ok (some value), w₁) := by
        show (d.askLayer layer key >>= _) (w.record (.searched layer key)) = _
        rw [Run.bind_ok hask]
        rfl
      refine ⟨w₁, ?_, hnoted⟩
      simp only [World.visible, Scope.cover, hanswer, Option.some_or]
      exact hstep
    | none =>
      rw [hanswer] at hask
      have hstep : d.search key (layer :: older) w = d.search key older w₁ := by
        show (d.askLayer layer key >>= _) (w.record (.searched layer key)) = _
        rw [Run.bind_ok hask]
      have holder : ∀ l ∈ older, base.Readable w l :=
        fun l hmem => hl l (List.mem_cons_of_mem _ hmem)
      obtain ⟨w₂, hsearch, hnoted₂⟩ := ih (hw.trans hnoted.grows)
        fun l hmem => (holder l hmem).keepsBelow hnoted.grows
      refine ⟨w₂, ?_, hnoted.trans hnoted₂⟩
      rw [hnoted.grows.visible_eq holder] at hsearch
      simp only [World.visible, Scope.cover, hanswer, Option.none_or]
      exact hstep.trans hsearch

end LayeredScope
