import LayeredScope.Proofs.Misses
import LayeredScope.Proofs.Searching
import LayeredScope.Proofs.Views

/-!
# Is a key visible?

The question is answered by a search, and the search ends in one of three ways: every layer misses,
the first layer that does not miss has a value, or that layer fails. The answer keeps only two of
them apart by what the layers said; the third is told from the first by the kind of the failure.

* `Dispatch.contains_true_iff`, `Dispatch.contains_false_iff`, `Dispatch.contains_error_iff` — each
  answer, by the layer that decided.
* `Dispatch.contains_congr` — only the layers take part: nothing that is found is invoked.
* `World.Presents`, `Dispatch.FailsBehind` — a view comes to look a key up on the stack that a
  bundle reads, and the look-up fails.
* `Host.visible_iff` — **the question ends as the first layer that does not miss says**, but for a
  layer that fails with a miss of its own: that one is taken for a miss of every layer.
-/

namespace LayeredScope

variable {κ σ : Type}

namespace Dispatch

variable {d e : Dispatch κ σ} {s : Stack κ} {key : String} {w w' : World κ σ}

/-! ## The question and the search -/

/-- The question ends as the search does, and changes nothing after it. -/
theorem contains_apply (d : Dispatch κ σ) (s : Stack κ) (key : String) (w : World κ σ) :
    d.contains s key w =
      match d.fetch s key w with
      | none => none
      | some (.ok _, w') => some (.ok true, w')
      | some (.error e, w') => some (if e.isMiss then .ok false else .error e, w') := by
  show ((d.fetch s key).attempt >>= _) w = _
  rw [Run.bind_apply]
  unfold Run.attempt
  cases d.fetch s key w with
  | none => rfl
  | some p =>
    obtain ⟨r, w'⟩ := p
    cases r with
    | ok v => rfl
    | error e =>
      show (if e.isMiss = true then _ else _ : Run (World κ σ) Bool) w' = _
      dsimp only
      split <;> rfl

theorem contains_of_ok {v : Value} (h : d.fetch s key w = some (.ok v, w')) :
    d.contains s key w = some (.ok true, w') := by
  rw [contains_apply, h]

theorem contains_of_error {e : Failure} (h : d.fetch s key w = some (.error e, w')) :
    d.contains s key w = some (if e.isMiss then .ok false else .error e, w') := by
  rw [contains_apply, h]

/-- What the search ended with, if the question has ended. -/
theorem fetch_of_contains {r : Except Failure Bool} (h : d.contains s key w = some (r, w')) :
    (∃ v, d.fetch s key w = some (.ok v, w') ∧ r = .ok true) ∨
      ∃ e, d.fetch s key w = some (.error e, w') ∧
        r = if e.isMiss then .ok false else .error e := by
  rw [contains_apply] at h
  cases hfetch : d.fetch s key w with
  | none => rw [hfetch] at h; cases h
  | some p =>
    obtain ⟨outcome, w₁⟩ := p
    rw [hfetch] at h
    cases outcome with
    | ok v =>
      cases h
      exact .inl ⟨v, rfl, rfl⟩
    | error e =>
      cases h
      exact .inr ⟨e, rfl, rfl⟩

/-! ## The three answers -/

/-- The answer is yes exactly when the first layer that does not miss has a value. -/
theorem contains_true_iff :
    d.contains s key w = some (.ok true, w') ↔ ∃ v, d.Decides key s.layers w (.ok v) w' := by
  constructor
  · intro h
    obtain ⟨v, hfetch, -⟩ | ⟨e, -, hr⟩ := fetch_of_contains h
    · obtain hdecides | ⟨-, hmiss⟩ := fetch_iff.mp hfetch
      · exact ⟨v, hdecides⟩
      · cases hmiss
    · split at hr <;> cases hr
  · rintro ⟨v, hdecides⟩
    exact contains_of_ok (fetch_iff.mpr (.inl hdecides))

/-- The answer is no when every layer misses, and also when the first that does not miss fails with
a miss of some key. -/
theorem contains_false_iff :
    d.contains s key w = some (.ok false, w') ↔
      d.Misses key s.layers w w' ∨
        ∃ missing, d.Decides key s.layers w (.error (.missingKey missing)) w' := by
  constructor
  · intro h
    obtain ⟨v, -, hr⟩ | ⟨e, hfetch, hr⟩ := fetch_of_contains h
    · cases hr
    · obtain hdecides | ⟨hmisses, -⟩ := fetch_iff.mp hfetch
      · cases e with
        | missingKey missing => exact .inr ⟨missing, hdecides⟩
        | _ => cases hr
      · exact .inl hmisses
  · rintro (hmisses | ⟨missing, hdecides⟩)
    · exact contains_of_error (fetch_iff.mpr (.inr ⟨hmisses, rfl⟩))
    · exact contains_of_error (fetch_iff.mpr (.inl hdecides))

/-- The question fails exactly when the first layer that does not miss fails, and not with
a miss. -/
theorem contains_error_iff {e : Failure} :
    d.contains s key w = some (.error e, w') ↔
      e.isMiss = false ∧ d.Decides key s.layers w (.error e) w' := by
  constructor
  · intro h
    obtain ⟨v, -, hr⟩ | ⟨e', hfetch, hr⟩ := fetch_of_contains h
    · cases hr
    · split at hr
      · cases hr
      · next hmiss =>
        cases hr
        obtain hdecides | ⟨-, hmissing⟩ := fetch_iff.mp hfetch
        · exact ⟨eq_false_of_ne_true hmiss, hdecides⟩
        · cases hmissing
          exact absurd rfl hmiss
  · rintro ⟨hmiss, hdecides⟩
    rw [contains_of_error (fetch_iff.mpr (.inl hdecides)), hmiss]
    rfl

/-! ## Who takes part -/

theorem search_congr {layers : List Layer}
    (h : ∀ id, .object id ∈ layers → d.readItem id key = e.readItem id key) :
    d.search key layers = e.search key layers := by
  induction layers with
  | nil => rfl
  | cons layer older ih =>
    have hasked : d.askLayer layer key = e.askLayer layer key := by
      cases layer with
      | mapping m => rfl
      | object id => exact h id List.mem_cons_self
      | sealed v => rfl
    have holder := ih fun id hid => h id (List.mem_cons_of_mem _ hid)
    unfold search
    rw [hasked, holder]

/-- Objects that are layers answer for the key; beyond that, it makes no difference how values are
read, called or rendered. -/
theorem contains_congr (h : ∀ id, .object id ∈ s.layers → d.readItem id key = e.readItem id key) :
    d.contains s key = e.contains s key := by
  have hfetch : d.fetch s key = e.fetch s key := by
    unfold fetch
    rw [search_congr h]
  unfold contains
  rw [hfetch]

end Dispatch

/-! ## A computed attribute behind a view -/

/-- A view has to look the key up behind a bundle, on a stack that nobody is reading. -/
structure World.Presents (w : World κ σ) (view : ObjectId) (key : String) (refused : List String)
    (bundle : ObjectId) (enclosure : EnclosureId) (stack : Stack κ) : Prop where
  through : w.ReadsThrough view key (.object bundle) refused
  bundle : w.object bundle = .bundle (.enclosure enclosure)
  idle : w.enclosures[enclosure.index]? = some (.idle stack)

/-- The world in which a view that was asked as a layer reads an attribute of its target. -/
def World.readingBehind (w : World κ σ) (view : ObjectId) (key : String) (refused : List String)
    (bundle : ObjectId) : World κ σ :=
  ((w.record (.searched (.object view) key)).record (.asked view key)).record
    (.read (.object bundle) key refused)

/-- The view is asked, and the look-up on the stack behind the bundle fails with `e`. -/
def Dispatch.FailsBehind (d : Dispatch κ σ) (view : ObjectId) (key : String) (e : Failure)
    (w w' : World κ σ) : Prop :=
  ∃ refused bundle enclosure stack s', w.Presents view key refused bundle enclosure stack ∧
    d.lookup key true
      ⟨(w.readingBehind view key refused bundle).setEnclosure enclosure .reading, stack⟩ =
        some (.error e, s') ∧
    w' = (s'.world.setEnclosure enclosure (.idle s'.stack)).record (.answered view key (.error e))

/-- A view hands on every failure of a computed attribute but those that mean that it is absent. -/
theorem Dispatch.FailsBehind.question {h : Host κ σ} {fuel : Nat} {view : ObjectId} {key : String}
    {e : Failure} {w w' : World κ σ} (hfails : (h.dispatch fuel).FailsBehind view key e w w')
    (hother : e ≠ .missingKey key) (hpresent : e.isAbsence = false) :
    (h.dispatch (fuel + 2)).question (.object view) key w = some (.error e, w') := by
  obtain ⟨refused, bundle, enclosure, stack, s', ⟨hthrough, hbundle, hidle⟩, hlookup, rfl⟩ := hfails
  -- the bundle lends its stack to the look-up and takes it back
  have hread : (h.dispatch (fuel + 1)).readAttr (.object bundle) key
      (w.readingBehind view key refused bundle) =
        some (.error e, s'.world.setEnclosure enclosure (.idle s'.stack)) := by
    rw [← Dispatch.readEnclosure_error hlookup hother]
    exact Answer.readAttr_idle h (h.dispatch fuel) (w := w.readingBehind view key refused bundle)
      hbundle hidle key
  obtain ⟨v, hview, -⟩ := id hthrough
  rw [h.question_view (fuel + 1) hview]
  exact Dispatch.viewGet_failure hthrough hread hpresent

/-! ## Main theorem -/

/-- **What the question whether a key is visible ends with.** It is yes exactly when the first
layer, from the newest, that does not miss has a value. It fails exactly when that layer fails with
something other than a miss, and with that failure. It is no when every layer misses, and in one
case more: when that layer fails with a miss of any key, be it raised far behind the layer. The
world is left as the last layer that was asked leaves it, and nothing but the layers takes part:
what is found is not invoked. A layer can fail so by a view of a bundle whose look-up fails: the
failure decides, over every older layer, and only if it is a miss, of another key, is the key said
not to be there. -/
theorem Host.visible_iff (h : Host κ σ) (s : Stack κ) (key : String) :
    (∀ d : Dispatch κ σ,
      (∀ w w', d.contains s key w = some (.ok true, w') ↔
        ∃ v, d.Decides key s.layers w (.ok v) w') ∧
      (∀ w w', d.contains s key w = some (.ok false, w') ↔
        d.Misses key s.layers w w' ∨
          ∃ missing, d.Decides key s.layers w (.error (.missingKey missing)) w') ∧
      (∀ e w w', d.contains s key w = some (.error e, w') ↔
        e.isMiss = false ∧ d.Decides key s.layers w (.error e) w') ∧
      ∀ other : Dispatch κ σ,
        (∀ id, .object id ∈ s.layers → d.readItem id key = other.readItem id key) →
        d.contains s key = other.contains s key) ∧
    ∀ fuel view e w w', (h.dispatch fuel).FailsBehind view key e w w' →
      e ≠ .missingKey key → e.isAbsence = false →
      (h.dispatch (fuel + 2)).Decides key (s.push (.object view)).layers w (.error e) w' ∧
      (h.dispatch (fuel + 2)).contains (s.push (.object view)) key w =
        some (if e.isMiss then .ok false else .error e, w') := by
  refine ⟨fun d => ⟨fun w w' => Dispatch.contains_true_iff, fun w w' => Dispatch.contains_false_iff,
    fun e w w' => Dispatch.contains_error_iff, fun other => Dispatch.contains_congr⟩, ?_⟩
  intro fuel view e w w' hfails hother hpresent
  have hquestion := hfails.question hother hpresent
  have hdecides : (h.dispatch (fuel + 2)).Decides key (s.push (.object view)).layers w (.error e)
      w' := ⟨[], .object view, s.layers, w, rfl, .nil w, .inr ⟨e, hquestion, rfl⟩⟩
  exact ⟨hdecides, Dispatch.contains_of_error (Dispatch.fetch_iff.mpr (.inl hdecides))⟩

/-- A view of a bundle, behind which the function of a name fails. -/
def coveredWorld (e : Failure) : World Failure Unit where
  maps := (failingWorld e).maps
  objects := (failingWorld e).objects.push
    (.view { target := .object ⟨0⟩, accessor := none, reserved := {}, memory := ∅ })
  functions := (failingWorld e).functions
  enclosures := (failingWorld e).enclosures
  host := ()

/-- A stack on which a mapping has the name. -/
def boundStack : Stack Failure := { layers := [.mapping ⟨0⟩] }

theorem coveredWorld_presents (e : Failure) :
    (coveredWorld e).Presents ⟨1⟩ "a" [] ⟨0⟩ ⟨0⟩ { layers := [.mapping ⟨0⟩] } :=
  ⟨⟨_, rfl, rfl, rfl, rfl, .unguarded⟩, rfl, rfl⟩

/-- With the view above the mapping, a refusal behind the view is the answer. -/
theorem coveredWorld_refusal :
    ∃ w', (failingHost.dispatch 4).contains (boundStack.push (.object ⟨1⟩)) "a"
      (coveredWorld (.policyDenial "a" "no")) = some (.error (.policyDenial "a" "no"), w') :=
  ⟨_, ((failingHost.visible_iff boundStack "a").2 2 ⟨1⟩ (.policyDenial "a" "no") _ _
    ⟨_, _, _, _, _, coveredWorld_presents _, rfl, rfl⟩ (by simp) rfl).2⟩

/-- A miss of another key behind the view decides as well, as a failure; and the answer is that the
name is not there, though a layer does not miss it. -/
theorem coveredWorld_miss_behind :
    ((failingHost.dispatch 4).question (.object ⟨1⟩) "a" (coveredWorld (.missingKey "b"))).map
      (·.1) = some (.error (.missingKey "b")) ∧
    ((failingHost.dispatch 4).contains (boundStack.push (.object ⟨1⟩)) "a"
      (coveredWorld (.missingKey "b"))).map (·.1) = some (.ok false) :=
  ⟨rfl, rfl⟩

end LayeredScope
