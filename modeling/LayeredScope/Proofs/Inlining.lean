import LayeredScope.Proofs.HostFree.Depth
import LayeredScope.Proofs.Termination

/-!
# Templates in place of their names

Inserting a name that stands for a template renders the template one level deeper, under an empty
mapping of globals and under guards of its own. None of that shows: the blocks of the template mean
the same in the scope in which the name stands.

* `Scope.within_of_isEmpty` — a template without globals and variables of its own adds nothing to a
  scope.
* `Meaning.renderOnto_insert` — an inserted template means what it is rendered as.
* `Host.inserted_template` — **a template may be inlined**, one level deeper, until its limit is
  passed.
-/

namespace LayeredScope

variable {κ σ : Type}

/-- A template without globals and variables of its own is rendered in the scope in which it is
invoked. -/
theorem Scope.within_of_isEmpty {w : World κ σ} {t : Template κ}
    (hglobals : (w.entries t.globals).isEmpty = true)
    (hvars : (w.entries t.vars).isEmpty = true) (ρ : Scope) : ρ.within w t = ρ := by
  show w.layered ρ [t.globals, t.vars] = ρ
  rw [World.layered_cons_of_isEmpty hglobals, World.layered_cons_of_isEmpty hvars]
  rfl

/-- A name that stands for a template is inserted as the text that the template is rendered as. -/
theorem Meaning.renderOnto_insert {w : World κ σ}
    {nested : Scope → Template κ → Except Failure String} {ρ : Scope} {name : String}
    {id : ObjectId} (hname : ρ name = some (.object id)) {t : Template κ}
    (ht : w.template? id = some t) :
    Meaning.renderOnto w nested ρ "" [.insert (.name name)] = nested ρ t := by
  have hlookup : Meaning.lookup w nested ρ name = (nested ρ t).map .str := by
    simp only [Meaning.lookup, hname]
    show Meaning.onAccess w nested ρ (.object id) = _
    simp only [Meaning.onAccess, ht]
  simp only [Meaning.renderOnto, Meaning.renderBlock, hlookup]
  cases nested ρ t with
  | error e => rfl
  | ok text =>
    show Except.ok ("" ++ w.display (.str text)) = .ok text
    rw [World.display_str, String.empty_append]

/-- Blocks that compute an outcome with some fuel end with it whenever there is no less fuel. -/
theorem Host.renderAll_of_computes (h : Host κ σ) {n cut room : Nat} {blocks : List (Block κ)}
    {s : Session κ σ} {r : Except Failure String}
    (hc : ((h.dispatch n).renderAll blocks).Computes cut room s r) :
    ∃ s', ∀ fuel, n ≤ fuel → (h.dispatch fuel).renderAll blocks s = some (r, s') := by
  obtain ⟨s', hrun, -⟩ := hc
  exact ⟨s', fun fuel hfuel => (h.dispatch_le hfuel).renderAll blocks s _ hrun⟩

/-- Inserting a name that stands for a template computes the content of the template. -/
theorem Host.insert_computes (h : Host κ σ) {limit : Int64} (hlimit : limit < Int64.maxValue)
    {w : World κ σ} (hw : w.HostFree limit) {s : Session κ σ} {ρ : Scope} (hs : Sees w s ρ)
    {name : String} {id : ObjectId} (hname : ρ name = some (.object id)) {t : Template κ}
    (ht : w.template? id = some t) {room : Nat}
    (hroom : limit.toInt < s.stack.level.toInt + (room + 1 : Nat)) :
    ((h.dispatch (room + 3)).renderAll [.insert (.name name)]).Computes s.world.maps.size (room + 1)
      s (Meaning.content w (room + 1) s.stack.level (ρ.within w t) t) := by
  have hserves := h.dispatch_serves hlimit hw (room + 1) (Nat.le_refl _) hroom
  have hinserted := hserves.renderOnto hw hs rfl "" [.insert (.name name)] rfl
  rw [Meaning.renderOnto_insert hname ht] at hinserted
  exact hinserted

/-- **A template may be inlined.** On a stack without a host, let a name be found to stand for a
template without globals and variables of its own, and let no template be nested deeper than
`limit`, which is not the greatest level. If the level does not exceed the limit of the template,
inserting the name ends with the same text or the same failure as the blocks of the template, one
level deeper. If it does, the insertion is refused with the limit of the template. -/
theorem Host.inserted_template (h : Host κ σ) {limit : Int64} (hlimit : limit < Int64.maxValue)
    {w w₀ : World κ σ} (hw : w.HostFree limit) {st : Stack κ}
    (hst : ∀ layer ∈ st.layers, w.layerIsHostFree layer = true) {name : String} {fuel₀ : Nat}
    {id : ObjectId} (hfound : (h.dispatch fuel₀).fetch st name w = some (.ok (.object id), w₀))
    {t : Template κ} (ht : w.template? id = some t)
    (hglobals : (w.entries t.globals).isEmpty = true)
    (hvars : (w.entries t.vars).isEmpty = true) :
    (st.level ≤ t.nestingLimit → ∃ r n, ∀ fuel, n ≤ fuel → ∃ s s',
      (h.dispatch fuel).renderAll [.insert (.name name)] ⟨w, st⟩ = some (r, s) ∧
      (h.dispatch fuel).renderAll t.blocks ⟨w, { st with level := st.level + 1 }⟩ = some (r, s')) ∧
    (t.nestingLimit < st.level → ∃ n, ∀ fuel, n ≤ fuel → ∃ s,
      (h.dispatch fuel).renderAll [.insert (.name name)] ⟨w, st⟩ =
        some (.error (.recursionLimit t.nestingLimit), s)) := by
  have hsees : Sees w ⟨w, st⟩ (w.visible w st.layers) := hw.sees st hst
  have hname : w.visible w st.layers name = some (.object id) := by
    have hfetched := h.fetch_eq_found hw hsees hfound
    cases hv : w.visible w st.layers name with
    | none => rw [hv] at hfetched; cases hfetched
    | some v => rw [hv] at hfetched; cases hfetched; rfl
  have hfree : t.HostFree limit w := hw.templates id t ht
  constructor
  · intro hle
    have hmax := Int64.le_trans hle hfree.nestingLimit
    have hdeeper : Stack.deeper st.level = st.level + 1 := by
      have hne : st.level ≠ Int64.maxValue := fun heq =>
        absurd (heq ▸ hmax) (Int64.not_le.mpr hlimit)
      simp only [Stack.deeper, if_neg hne]
    -- the two runs leave the same room for the bodies that they open
    let room := bodyRoom limit (Stack.deeper st.level)
    have hroom : limit.toInt < st.level.toInt + (room + 1 : Nat) :=
      bodyRoom_deeper hmax hlimit ▸ lt_add_bodyRoom limit st.level
    have hinserted := h.insert_computes hlimit hw hsees hname ht hroom
    rw [Meaning.content, if_neg (Int64.not_lt.mpr hle), Scope.within_of_isEmpty hglobals hvars]
      at hinserted
    have hsees' : Sees w ⟨w, { st with level := st.level + 1 }⟩ (w.visible w st.layers) :=
      hsees.grow (.refl w) rfl
    have hinlined := (h.dispatch_serves hlimit hw room (Nat.le_refl _)
      (lt_add_bodyRoom limit (Stack.deeper st.level))).renderOnto hw hsees' hdeeper.symm "" t.blocks
      hfree.blocks
    obtain ⟨s, hs⟩ := h.renderAll_of_computes hinserted
    obtain ⟨s', hs'⟩ := h.renderAll_of_computes hinlined
    exact ⟨_, room + 3, fun fuel hfuel =>
      ⟨s, s', hs fuel hfuel, hs' fuel (Nat.le_of_succ_le hfuel)⟩⟩
  · intro hrefused
    let room := bodyRoom limit st.level
    have hroom : limit.toInt < st.level.toInt + (room + 1 : Nat) := by
      have := lt_add_bodyRoom limit st.level
      omega
    have hinserted := h.insert_computes hlimit hw hsees hname ht hroom
    rw [Meaning.content, if_pos hrefused] at hinserted
    obtain ⟨s, hs⟩ := h.renderAll_of_computes hinserted
    exact ⟨room + 3, fun fuel hfuel => ⟨s, hs fuel hfuel⟩⟩

/-- A template that inserts itself if it can, and has nothing of its own. -/
def chorus : Template Unit where
  name := "chorus"
  blocks := [.text "la ", .choose [(.name "chorus", [.insert (.name "chorus")])] none]
  globals := ⟨1⟩
  vars := ⟨1⟩
  nestingLimit := 2

def chorusWorld : World Unit Unit where
  maps := #[.ofList [("chorus", .object ⟨0⟩)], ∅]
  objects := #[.template chorus]
  host := ()

theorem chorusWorld_hostFree : chorusWorld.HostFree 2 := by
  have hchorus : chorus.HostFree 2 chorusWorld := ⟨by decide, by decide, by decide, by decide⟩
  refine ⟨by decide, fun id t ht => ?_⟩
  obtain ⟨_ | i⟩ := id
  · cases ht
    exact hchorus
  · cases ht

/-- Within its limit it may be inlined, though it is refused further in; above it, it is refused
at once. -/
theorem chorusWorld_inserted :
    (2 : Int64) < Int64.maxValue ∧ chorusWorld.HostFree 2 ∧
      (∃ r n, ∀ fuel, n ≤ fuel → ∃ s s',
        (silentHost.dispatch fuel).renderAll [.insert (.name "chorus")]
          ⟨chorusWorld, { layers := [.mapping ⟨0⟩] }⟩ = some (r, s) ∧
        (silentHost.dispatch fuel).renderAll chorus.blocks
          ⟨chorusWorld, { layers := [.mapping ⟨0⟩], level := 1 }⟩ = some (r, s')) ∧
      ∃ n, ∀ fuel, n ≤ fuel → ∃ s,
        (silentHost.dispatch fuel).renderAll [.insert (.name "chorus")]
          ⟨chorusWorld, { layers := [.mapping ⟨0⟩], level := 3 }⟩ =
            some (.error (.recursionLimit 2), s) := by
  have hlayers :
      ∀ layer ∈ ([.mapping ⟨0⟩] : List Layer), chorusWorld.layerIsHostFree layer = true :=
    by decide
  have hfound (level : Int64) : (silentHost.dispatch 0).fetch { layers := [.mapping ⟨0⟩], level }
      "chorus" chorusWorld =
        some (.ok (.object ⟨0⟩), chorusWorld.record (.searched (.mapping ⟨0⟩) "chorus")) := rfl
  have htemplate : chorusWorld.template? ⟨0⟩ = some chorus := rfl
  have hinserted (level : Int64) := Host.inserted_template silentHost (by decide : (2 : Int64) < _)
    chorusWorld_hostFree hlayers (hfound level) htemplate (by decide) (by decide)
  exact ⟨by decide, chorusWorld_hostFree, (hinserted 0).1 (by decide), (hinserted 3).2 (by decide)⟩

example : ((silentHost.dispatch 6).renderAll [.insert (.name "chorus")]
    ⟨chorusWorld, { layers := [.mapping ⟨0⟩] }⟩).map (·.1) = some (.error (.recursionLimit 2)) := by
  cbv

end LayeredScope
