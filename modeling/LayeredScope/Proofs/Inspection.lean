import LayeredScope.World.Diagnostic

/-!
# The parts of a diagnostic text

The text of a value, a mapping, an object, a layer or a stack is put together from the texts of its
parts, and it is finished when theirs are. What matters for whether a text is ever finished is only
which parts there are.

* `Shown`, `World.inspect` — everything that has such a text, and the text.
* `World.parts` — what is written inside the text.
* `World.inspect_isSome` — one unit of fuel is spent on a step to the parts.
* `World.inspect_le` — a finished text is the text with any more fuel.
-/

namespace LayeredScope

variable {κ σ : Type}

/-- What has a diagnostic text. -/
inductive Shown (κ : Type) where
  | value (v : Value)
  | mapping (m : MapId)
  | object (id : ObjectId)
  | layer (l : Layer)
  | stack (s : Stack κ)

/-! ## Texts that are put together -/

/-- A text around one part is finished when the part is. -/
theorem isSome_bind_pure {α β : Type} (x : Option α) (f : α → β) :
    (x >>= fun a => pure (f a)).isSome ↔ x.isSome := by
  cases x <;> simp

/-- A text around two parts is finished when both are. -/
theorem isSome_bind_bind_pure {α β γ : Type} (x : Option α) (y : Option β) (f : α → β → γ) :
    (x >>= fun a => y >>= fun b => pure (f a b)).isSome ↔ x.isSome ∧ y.isSome := by
  cases x <;> cases y <;> simp

theorem isSome_mapM {α β : Type} {f : α → Option β} {l : List α} :
    (l.mapM f).isSome ↔ ∀ a ∈ l, (f a).isSome := by
  induction l with
  | nil => simp
  | cons a rest ih =>
    rw [List.mapM_cons, isSome_bind_bind_pure, List.forall_mem_cons, ih]

theorem mapM_congr {α β : Type} {f g : α → Option β} {l : List α} (h : ∀ a ∈ l, f a = g a) :
    l.mapM f = l.mapM g := by
  induction l with
  | nil => rfl
  | cons a rest ih =>
    obtain ⟨ha, hrest⟩ := List.forall_mem_cons.mp h
    rw [List.mapM_cons, List.mapM_cons, ha, ih hrest]

namespace World

theorem isSome_inspectEntries {f : Value → Option String} {entries : Entries Value} :
    (inspectEntries f entries).isSome ↔ ∀ p ∈ entries.toList, (f p.2).isSome := by
  unfold inspectEntries
  rw [isSome_bind_pure, isSome_mapM]
  exact forall₂_congr fun p _ => isSome_bind_pure (f p.2) _

theorem inspectEntries_congr {f g : Value → Option String} {entries : Entries Value}
    (h : ∀ p ∈ entries.toList, f p.2 = g p.2) :
    inspectEntries f entries = inspectEntries g entries := by
  unfold inspectEntries
  congr 1
  refine mapM_congr fun p hp => ?_
  show (f p.2 >>= _) = (g p.2 >>= _)
  rw [h p hp]

/-! ## Texts and their parts -/

variable (w : World κ σ)

/-- The diagnostic text inside open mappings. -/
def inspect (fuel : Nat) (opened : List MapId) : Shown κ → Option String
  | .value v => w.inspectValue fuel opened v
  | .mapping m => w.inspectMap fuel opened m
  | .object id => w.inspectObject fuel opened id
  | .layer l => w.inspectLayer fuel opened l
  | .stack s => w.inspectStack fuel opened s

/-- The parts of a value: the items of a list, and what stands behind an identity. -/
def valueParts : Value → List (Shown κ)
  | .list items => items.map .value
  | .map m => [.mapping m]
  | .object id => [.object id]
  | _ => []

/-- The parts of an object: the host's own text has none, and a stack that is being read is not
shown. -/
def objectParts (id : ObjectId) : List (Shown κ) :=
  match w.object id with
  | .host _ => []
  | .view v => [.value v.target]
  | .bundle (.mapping m) => [.mapping m]
  | .bundle (.enclosure e) =>
    match w.enclosures[e.index]? with
    | some (.idle s) => [.stack s]
    | _ => []
  | .template t => [.mapping t.globals, .mapping t.vars]

def layerParts : Layer → List (Shown κ)
  | .mapping m => [.mapping m]
  | .object id => [.object id]
  | .sealed v => [.value v]

/-- What is written inside the text. -/
def parts : Shown κ → List (Shown κ)
  | .value v => valueParts v
  | .mapping m => (w.entries m).toList.map fun p => .value p.2
  | .object id => w.objectParts id
  | .layer l => layerParts l
  | .stack s => s.layers.reverse.map .layer ++ s.fields.toList.map fun p => .value p.2

end World

/-- The mappings that are open inside. -/
def Shown.opening (opened : List MapId) : Shown κ → List MapId
  | .mapping m => m :: opened
  | _ => opened

/-- An open mapping is cut. -/
def Shown.IsCut (opened : List MapId) : Shown κ → Prop
  | .mapping m => m ∈ opened
  | _ => False

namespace World

variable {w : World κ σ} {fuel fuel' : Nat} {opened : List MapId}

theorem inspect_zero (x : Shown κ) : w.inspect 0 opened x = none := by
  cases x <;> rfl

/-! ## One step -/

theorem inspectValue_isSome (v : Value) :
    (w.inspectValue (fuel + 1) opened v).isSome ↔
      ∀ y ∈ (valueParts v : List (Shown κ)), (w.inspect fuel opened y).isSome := by
  cases v with
  | list items =>
    simp only [inspectValue, isSome_bind_pure, isSome_mapM, valueParts, List.forall_mem_map,
      inspect]
  | map m =>
    simp only [inspectValue, isSome_bind_pure, valueParts, List.forall_mem_singleton, inspect]
  | object id =>
    simp only [inspectValue, isSome_bind_pure, valueParts, List.forall_mem_singleton, inspect]
  | none | bool b | int n | float x | str s | function id => simp [inspectValue, valueParts]

theorem inspectMap_isSome (m : MapId) :
    (w.inspectMap (fuel + 1) opened m).isSome ↔
      m ∈ opened ∨ ∀ y ∈ w.parts (.mapping m), (w.inspect fuel (m :: opened) y).isSome := by
  rw [inspectMap]
  split
  · simp [*]
  · simp only [isSome_bind_pure, isSome_inspectEntries, parts, List.forall_mem_map, inspect, *,
      false_or]

theorem inspectObject_isSome (id : ObjectId) :
    (w.inspectObject (fuel + 1) opened id).isSome ↔
      ∀ y ∈ w.objectParts id, (w.inspect fuel opened y).isSome := by
  rw [inspectObject, objectParts]
  cases w.object id with
  | host h => simp
  | view v => simp only [isSome_bind_pure, List.forall_mem_singleton, inspect]
  | bundle b =>
    cases b with
    | mapping m => simp only [isSome_bind_pure, List.forall_mem_singleton, inspect]
    | enclosure e =>
      dsimp only
      rcases w.enclosures[e.index]? with _ | s | _
      · simp
      · simp only [isSome_bind_pure, List.forall_mem_singleton, inspect]
      · simp
  | template t =>
    dsimp only
    rw [isSome_bind_bind_pure]
    simp [inspect]

theorem inspectLayer_isSome (l : Layer) :
    (w.inspectLayer (fuel + 1) opened l).isSome ↔
      ∀ y ∈ (layerParts l : List (Shown κ)), (w.inspect fuel opened y).isSome := by
  cases l <;>
    simp only [inspectLayer, isSome_bind_pure, layerParts, List.forall_mem_singleton, inspect]

theorem inspectStack_isSome (s : Stack κ) :
    (w.inspectStack (fuel + 1) opened s).isSome ↔
      ∀ y ∈ w.parts (.stack s), (w.inspect fuel opened y).isSome := by
  simp only [inspectStack, isSome_bind_bind_pure, isSome_mapM, isSome_inspectEntries, parts,
    List.forall_mem_append, List.forall_mem_map, inspect]

/-- **A text is finished with one more unit of fuel than its parts are**, or it is cut. -/
theorem inspect_isSome (x : Shown κ) :
    (w.inspect (fuel + 1) opened x).isSome ↔
      x.IsCut opened ∨ ∀ y ∈ w.parts x, (w.inspect fuel (x.opening opened) y).isSome := by
  cases x with
  | mapping m => exact inspectMap_isSome m
  | value v => exact (inspectValue_isSome v).trans (or_iff_right id).symm
  | object o => exact (inspectObject_isSome o).trans (or_iff_right id).symm
  | layer l => exact (inspectLayer_isSome l).trans (or_iff_right id).symm
  | stack s => exact (inspectStack_isSome s).trans (or_iff_right id).symm

/-! ## More fuel -/

theorem inspectValue_congr {v : Value}
    (h : ∀ y ∈ (valueParts v : List (Shown κ)),
      w.inspect fuel opened y = w.inspect fuel' opened y) :
    w.inspectValue (fuel + 1) opened v = w.inspectValue (fuel' + 1) opened v := by
  cases v with
  | list items =>
    have hitems : ∀ v ∈ items, w.inspectValue fuel opened v = w.inspectValue fuel' opened v :=
      fun v hv => h (.value v) (List.mem_map_of_mem hv)
    simp only [inspectValue, mapM_congr hitems]
  | map m =>
    have hmap : w.inspectMap fuel opened m = w.inspectMap fuel' opened m :=
      h (.mapping m) List.mem_cons_self
    simp only [inspectValue, hmap]
  | object id =>
    have hobject : w.inspectObject fuel opened id = w.inspectObject fuel' opened id :=
      h (.object id) List.mem_cons_self
    simp only [inspectValue, hobject]
  | none | bool b | int n | float x | str s | function id => rfl

theorem inspectMap_congr {m : MapId}
    (h : ∀ y ∈ w.parts (.mapping m), w.inspect fuel (m :: opened) y =
      w.inspect fuel' (m :: opened) y) :
    w.inspectMap (fuel + 1) opened m = w.inspectMap (fuel' + 1) opened m := by
  have hentries : ∀ p ∈ (w.entries m).toList,
      w.inspectValue fuel (m :: opened) p.2 = w.inspectValue fuel' (m :: opened) p.2 :=
    fun p hp => h (.value p.2) (List.mem_map.mpr ⟨p, hp, rfl⟩)
  simp only [inspectMap, inspectEntries_congr hentries]

theorem inspectObject_congr {id : ObjectId}
    (h : ∀ y ∈ w.objectParts id, w.inspect fuel opened y = w.inspect fuel' opened y) :
    w.inspectObject (fuel + 1) opened id = w.inspectObject (fuel' + 1) opened id := by
  rw [inspectObject, inspectObject]
  rw [objectParts] at h
  cases hid : w.object id with
  | host o => rfl
  | view v =>
    rw [hid] at h
    have htarget : w.inspectValue fuel opened v.target = w.inspectValue fuel' opened v.target :=
      h (.value v.target) List.mem_cons_self
    simp only [htarget]
  | bundle b =>
    rw [hid] at h
    cases b with
    | mapping m =>
      have hmap : w.inspectMap fuel opened m = w.inspectMap fuel' opened m :=
        h (.mapping m) List.mem_cons_self
      simp only [hmap]
    | enclosure e =>
      dsimp only at h ⊢
      rcases he : w.enclosures[e.index]? with _ | s | _
      · rfl
      · rw [he] at h
        have hstack : w.inspectStack fuel opened s = w.inspectStack fuel' opened s :=
          h (.stack s) List.mem_cons_self
        simp only [hstack]
      · rfl
  | template t =>
    rw [hid] at h
    have hglobals : w.inspectMap fuel opened t.globals = w.inspectMap fuel' opened t.globals :=
      h (.mapping t.globals) List.mem_cons_self
    have hvars : w.inspectMap fuel opened t.vars = w.inspectMap fuel' opened t.vars :=
      h (.mapping t.vars) (List.mem_cons_of_mem _ List.mem_cons_self)
    simp only [hglobals, hvars]

theorem inspectLayer_congr {l : Layer}
    (h : ∀ y ∈ (layerParts l : List (Shown κ)),
      w.inspect fuel opened y = w.inspect fuel' opened y) :
    w.inspectLayer (fuel + 1) opened l = w.inspectLayer (fuel' + 1) opened l := by
  cases l with
  | mapping m =>
    have hmap : w.inspectMap fuel opened m = w.inspectMap fuel' opened m :=
      h (.mapping m) List.mem_cons_self
    simp only [inspectLayer, hmap]
  | object id =>
    have hobject : w.inspectObject fuel opened id = w.inspectObject fuel' opened id :=
      h (.object id) List.mem_cons_self
    simp only [inspectLayer, hobject]
  | «sealed» v =>
    have hvalue : w.inspectValue fuel opened v = w.inspectValue fuel' opened v :=
      h (.value v) List.mem_cons_self
    simp only [inspectLayer, hvalue]

theorem inspectStack_congr {s : Stack κ}
    (h : ∀ y ∈ w.parts (.stack s), w.inspect fuel opened y = w.inspect fuel' opened y) :
    w.inspectStack (fuel + 1) opened s = w.inspectStack (fuel' + 1) opened s := by
  obtain ⟨hlayers, hfields⟩ := List.forall_mem_append.mp h
  have hsources : ∀ l ∈ s.layers.reverse,
      w.inspectLayer fuel opened l = w.inspectLayer fuel' opened l :=
    fun l hl => hlayers (.layer l) (List.mem_map_of_mem hl)
  have hvalues : ∀ p ∈ s.fields.toList,
      w.inspectValue fuel opened p.2 = w.inspectValue fuel' opened p.2 :=
    fun p hp => hfields (.value p.2) (List.mem_map.mpr ⟨p, hp, rfl⟩)
  simp only [inspectStack, mapM_congr hsources, inspectEntries_congr hvalues]

/-- A text is put together from the texts of its parts and from nothing else that takes fuel. -/
theorem inspect_congr {x : Shown κ}
    (h : ∀ y ∈ w.parts x, w.inspect fuel (x.opening opened) y =
      w.inspect fuel' (x.opening opened) y) :
    w.inspect (fuel + 1) opened x = w.inspect (fuel' + 1) opened x := by
  cases x with
  | value v => exact inspectValue_congr h
  | mapping m => exact inspectMap_congr h
  | object id => exact inspectObject_congr h
  | layer l => exact inspectLayer_congr h
  | stack s => exact inspectStack_congr h

/-- The text of a cut takes no fuel for its parts. -/
theorem inspect_cut {x : Shown κ} (h : x.IsCut opened) :
    w.inspect (fuel + 1) opened x = some "\x7b...\x7d" := by
  cases x with
  | mapping m => exact if_pos h
  | value | object | layer | stack => exact h.elim

/-- **A finished text is the text with any more fuel.** -/
theorem inspect_le {x : Shown κ} {text : String} (h : w.inspect fuel opened x = some text)
    (hle : fuel ≤ fuel') : w.inspect fuel' opened x = some text := by
  induction fuel generalizing opened x text fuel' with
  | zero =>
    rw [inspect_zero] at h
    cases h
  | succ fuel ih =>
    obtain ⟨fuel', rfl⟩ := Nat.exists_eq_add_of_le' (Nat.le_of_add_left_le hle)
    by_cases hcut : x.IsCut opened
    · rw [inspect_cut hcut] at h ⊢
      exact h
    · have hparts := (inspect_isSome x).mp (Option.isSome_of_eq_some h)
      rw [← h]
      refine (inspect_congr fun y hy => ?_).symm
      obtain ⟨part, hpart⟩ := Option.isSome_iff_exists.mp (hparts.resolve_left hcut y hy)
      rw [hpart, ih hpart (Nat.le_of_succ_le_succ hle)]

/-- What is finished stays finished. -/
theorem isSome_inspect_le {x : Shown κ} (h : (w.inspect fuel opened x).isSome)
    (hle : fuel ≤ fuel') : (w.inspect fuel' opened x).isSome := by
  obtain ⟨text, htext⟩ := Option.isSome_iff_exists.mp h
  exact Option.isSome_of_eq_some (inspect_le htext hle)

end World

end LayeredScope
