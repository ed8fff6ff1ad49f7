import LayeredScope.Proofs.Termination

/-!
# Layers and merged mappings

A stack of mappings shows the newest definition of each name, and so does the one mapping that they
are merged into. Rendering takes both apart no further than that: what is rendered is the meaning of
the document in the scope that the layers make visible, however many there are.

* `Entries.merge`, `World.merged` — mappings laid over each other, the newest definition winning.
* `World.get?_merged` — a merged mapping makes visible what its parts do.
* `Host.layering_refines_merging` — **documents cannot tell layers from a merged mapping.**
-/

namespace LayeredScope

variable {κ σ α : Type}

/-- All that is bound below, except where it is bound above. -/
def Entries.merge (below above : Entries α) : Entries α :=
  above.toList.foldr (fun entry merged => merged.insert entry.1 entry.2) below

@[simp] theorem Entries.get?_merge (below above : Entries α) (key : String) :
    (below.merge above).get? key = (above.get? key).or (below.get? key) := by
  unfold merge
  show _ = (lookupIn key above.toList).or _
  generalize above.toList = entries
  induction entries with
  | nil => rfl
  | cons entry rest ih =>
    obtain ⟨k, v⟩ := entry
    rw [List.foldr_cons, get?_insert, ih]
    by_cases hkey : key = k <;> simp [lookupIn, hkey]

/-- Mappings merged into one, the last one winning. -/
def World.merged (w : World κ σ) (ms : List MapId) : Entries Value :=
  ms.foldl (fun below m => below.merge (w.entries m)) ∅

theorem World.get?_foldl_merge (w : World κ σ) (below : Entries Value) (ms : List MapId) :
    (ms.foldl (fun below m => below.merge (w.entries m)) below).get? =
      w.layered below.get? ms := by
  induction ms generalizing below with
  | nil => rfl
  | cons m ms ih =>
    have hmerge : (below.merge (w.entries m)).get? =
        Scope.cover (w.entries m).get? below.get? := funext (below.get?_merge (w.entries m))
    rw [List.foldl_cons, ih, hmerge]
    rfl

/-- **A merged mapping makes visible what its parts do**, one over the other. -/
theorem World.get?_merged (w : World κ σ) (ms : List MapId) :
    (w.merged ms).get? = w.layered (fun _ => none) ms := w.get?_foldl_merge ∅ ms

section

variable {limit : Int64} {w : World κ σ} (hw : w.HostFree limit) {ms : List MapId}
  (hms : ∀ m ∈ ms, m.index < w.maps.size)

include hw hms

/-- What a stack of mappings stands for. -/
theorem Sees.of_mappings {st : Stack κ} (hst : st.layers = (ms.map .mapping).reverse) :
    Sees w ⟨w, st⟩ (w.layered (fun _ => none) ms) := by
  have hempty : Sees w ⟨w, { st with layers := [] }⟩ (fun _ => none) :=
    hw.sees st (List.forall_mem_nil _)
  have hpushed := hempty.pushAll hw ms hms
  rw [Stack.pushAll_eq, List.append_nil] at hpushed
  exact hpushed.grow (.refl w) hst

/-- What the merged mapping stands for, in a world that may have been issued only later. -/
theorem Sees.of_merged {w' : World κ σ} (hgrows : w.Grows w') {m : MapId}
    (hm : m.index < w'.maps.size) (hmerged : w'.entries m = w.merged ms) {st : Stack κ}
    (hst : st.layers = [.mapping m]) : Sees w ⟨w', st⟩ (w.layered (fun _ => none) ms) where
  grows := hgrows
  readable layer hmem := by
    rw [hst, List.mem_singleton] at hmem
    rw [hmem]
    exact hm
  visible := by
    funext key
    rw [hst, ← World.get?_merged, ← hmerged]
    simp only [World.visible, Scope.cover, World.answer, Option.or_none]
  hostFree := by
    have hlayered : Sees w ⟨w, { st with layers := (ms.map .mapping).reverse }⟩
        (w.layered (fun _ => none) ms) := .of_mappings hw hms rfl
    exact hlayered.hostFree

end

/-- **Layering refines merging.** Let mappings of a world without a host, some of them perhaps
several times, be the layers of one stack, and the one mapping that they are merged into the only
layer of another, at the same level. Then every document without a host ends on both stacks with the
same text or the same failure. -/
theorem Host.layering_refines_merging (h : Host κ σ) {limit : Int64}
    (hlimit : limit < Int64.maxValue) {w w' : World κ σ} (hw : w.HostFree limit)
    {ms : List MapId} (hms : ∀ m ∈ ms, m.index < w.maps.size) (hgrows : w.Grows w') {m : MapId}
    (hm : m.index < w'.maps.size) (hmerged : w'.entries m = w.merged ms) {st st' : Stack κ}
    (hst : st.layers = (ms.map .mapping).reverse) (hst' : st'.layers = [.mapping m])
    (hlevel : st'.level = st.level) {blocks : List (Block κ)}
    (hblocks : Block.areHostFree blocks = true) :
    ∃ r n, ∀ fuel, n ≤ fuel → ∃ s s',
      (h.dispatch fuel).renderAll blocks ⟨w, st⟩ = some (r, s) ∧
      (h.dispatch fuel).renderAll blocks ⟨w', st'⟩ = some (r, s') := by
  obtain ⟨n, nested, hserves⟩ := h.exists_serves hlimit hw st.level
  obtain ⟨s, hlayered, -⟩ :=
    hserves.renderOnto hw (Sees.of_mappings hw hms hst) rfl "" blocks hblocks
  obtain ⟨s', hmerged, -⟩ :=
    hserves.renderOnto hw (Sees.of_merged hw hms hgrows hm hmerged hst') hlevel "" blocks hblocks
  have hle : ∀ fuel, n ≤ fuel →
      ((h.dispatch n).renderAll blocks).Le ((h.dispatch fuel).renderAll blocks) :=
    fun fuel hfuel => (h.dispatch_le hfuel).renderAll blocks
  exact ⟨_, n, fun fuel hfuel =>
    ⟨s, s', hle fuel hfuel _ _ hlayered, hle fuel hfuel _ _ hmerged⟩⟩

/-- A template that says the name in whose scope it is invoked. -/
def greeting : Template Unit where
  name := "greeting"
  blocks := [.text "Hello ", .insert (.name "name")]
  globals := ⟨2⟩
  vars := ⟨2⟩

/-- Two mappings that both define a name. -/
def greetingWorld : World Unit Unit where
  maps := #[.ofList [("greeting", .object ⟨0⟩), ("name", .str "Ann")],
    .ofList [("name", .str "Bob")], ∅]
  objects := #[.template greeting]
  host := ()

theorem greetingWorld_hostFree : greetingWorld.HostFree 200 := by
  have hgreeting : greeting.HostFree 200 greetingWorld :=
    ⟨by decide, by decide, by decide, by decide⟩
  refine ⟨by decide, fun id t ht => ?_⟩
  obtain ⟨_ | i⟩ := id
  · cases ht
    exact hgreeting
  · cases ht

/-- The first mapping lies under the second and over it. -/
theorem greetingWorld_layering :
    (200 : Int64) < Int64.maxValue ∧ greetingWorld.HostFree 200 ∧
      ∃ r n, ∀ fuel, n ≤ fuel → ∃ s s',
        (silentHost.dispatch fuel).renderAll
          [.choose [(.name "missing", [])] (some [.insert (.name "greeting")])]
          ⟨greetingWorld, { layers := [.mapping ⟨0⟩, .mapping ⟨1⟩, .mapping ⟨0⟩] }⟩ = some (r, s) ∧
        (silentHost.dispatch fuel).renderAll
          [.choose [(.name "missing", [])] (some [.insert (.name "greeting")])]
          ⟨(greetingWorld.newMap (greetingWorld.merged [⟨0⟩, ⟨1⟩, ⟨0⟩])).2,
            { layers := [.mapping ⟨3⟩] }⟩ = some (r, s') := by
  have hms : ∀ m ∈ ([⟨0⟩, ⟨1⟩, ⟨0⟩] : List MapId), m.index < greetingWorld.maps.size := by decide
  refine ⟨by decide, greetingWorld_hostFree, ?_⟩
  refine Host.layering_refines_merging silentHost (by decide) greetingWorld_hostFree hms
    (.newMap _ _) (m := ⟨3⟩) (by decide) (World.entries_newMap _ _) ?_ ?_ ?_ ?_
  · rfl
  · rfl
  · rfl
  · decide

example : ((silentHost.dispatch 4).renderAll [.insert (.name "greeting")]
    ⟨greetingWorld, { layers := [.mapping ⟨1⟩, .mapping ⟨0⟩] }⟩).map (·.1) =
      some (.ok "Hello Bob") := by cbv

end LayeredScope
