import LayeredScope.Host.Answer
import LayeredScope.Proofs.Inspection
import LayeredScope.Proofs.Unfolding
import Mathlib.Data.Finset.Card
import Mathlib.Data.List.Permutation

/-!
# Which diagnostic texts are finished

A mapping inside its own text is cut, and nothing else is. So the text of what contains itself is
finished if a mapping lies on the way, and only then.

* `World.Directly`, `World.Knotted` — written inside, with no mapping on the way; an object that is
  written inside itself in this manner.
* `World.Ends` — with some fuel the text is finished (`World.ends_iff`, by the parts).
* `World.not_ends_of_knotted`, `World.not_ends_of_way` — a knot, and what leads to one, is never
  finished.
* `World.ends_of_unknotted` — anything else is.
* `World.HoldsItself` — a stack that is closed off holds its own bundle. Where views are made of
  what there is, there are no other knots.
* `World.inspect_ends_iff` — **a text is finished exactly if no knot is written inside it**.
-/

namespace LayeredScope

variable {κ σ : Type}

/-- Nothing of the kind is ever cut. -/
def Shown.Unmarked (x : Shown κ) : Prop := ∀ opened, ¬ x.IsCut opened

theorem Shown.eq_mapping_of_not_unmarked {x : Shown κ} (h : ¬ x.Unmarked) :
    ∃ m, x = .mapping m := by
  cases x with
  | mapping m => exact ⟨m, rfl⟩
  | value | object | layer | stack => exact absurd (fun _ => id) h

theorem Shown.unmarked_object (id : ObjectId) : (Shown.object id : Shown κ).Unmarked :=
  fun _ h => h

theorem Shown.not_unmarked_mapping (m : MapId) : ¬ (Shown.mapping m : Shown κ).Unmarked :=
  fun h => h [m] List.mem_cons_self

theorem Shown.opening_of_unmarked {x : Shown κ} (h : x.Unmarked) (opened : List MapId) :
    x.opening opened = opened := by
  cases x with
  | mapping m => exact absurd h (not_unmarked_mapping m)
  | value | object | layer | stack => rfl

namespace World

variable (w : World κ σ)

/-- The second is written inside the text of the first. -/
def Shows (x y : Shown κ) : Prop := y ∈ w.parts x

/-- Neither of them is a mapping. -/
def Directly (x y : Shown κ) : Prop := w.Shows x y ∧ x.Unmarked ∧ y.Unmarked

/-- The object is written inside itself with no mapping on the way. -/
def Knotted (id : ObjectId) : Prop := Relation.TransGen w.Directly (.object id) (.object id)

/-- With some fuel the text is finished. -/
def Ends (opened : List MapId) (x : Shown κ) : Prop :=
  ∃ fuel, (w.inspect fuel opened x).isSome

variable {w} {opened : List MapId} {x y : Shown κ}

/-! ## Step by step -/

/-- Some fuel serves all of finitely many. -/
theorem exists_fuel {xs : List (Shown κ)} (h : ∀ y ∈ xs, w.Ends opened y) :
    ∃ fuel, ∀ y ∈ xs, (w.inspect fuel opened y).isSome := by
  induction xs with
  | nil => exact ⟨0, nofun⟩
  | cons x rest ih =>
    obtain ⟨hx, hrest⟩ := List.forall_mem_cons.mp h
    obtain ⟨fuel, hfuel⟩ := hx
    obtain ⟨fuel', hfuel'⟩ := ih hrest
    refine ⟨max fuel fuel', List.forall_mem_cons.mpr ⟨?_, fun y hy => ?_⟩⟩
    · exact isSome_inspect_le hfuel (Nat.le_max_left _ _)
    · exact isSome_inspect_le (hfuel' y hy) (Nat.le_max_right _ _)

theorem ends_of_parts (h : ∀ y ∈ w.parts x, w.Ends (x.opening opened) y) : w.Ends opened x := by
  obtain ⟨fuel, hfuel⟩ := exists_fuel h
  exact ⟨fuel + 1, (inspect_isSome x).mpr (.inr hfuel)⟩

theorem ends_of_cut (h : x.IsCut opened) : w.Ends opened x :=
  ⟨1, (inspect_isSome x).mpr (.inl h)⟩

/-! ## Knots are not finished -/

/-- Nothing that leads to a knot without a mapping on the way is ever finished. -/
theorem not_isSome_of_knotted {id : ObjectId} (hid : w.Knotted id) {fuel : Nat}
    (hx : Relation.TransGen w.Directly x (.object id)) :
    ¬ (w.inspect fuel opened x).isSome := by
  induction fuel generalizing x opened with
  | zero =>
    rw [inspect_zero]
    exact nofun
  | succ fuel ih =>
    obtain ⟨y, hxy, hy⟩ := Relation.TransGen.head'_iff.mp hx
    obtain ⟨hpart, hunmarked, -⟩ := hxy
    intro hsome
    have hparts := ((inspect_isSome x).mp hsome).resolve_left (hunmarked opened)
    rcases Relation.reflTransGen_iff_eq_or_transGen.mp hy with heq | htrans
    · exact ih (heq ▸ hid) (hparts y hpart)
    · exact ih htrans (hparts y hpart)

theorem not_ends_of_knotted {id : ObjectId} (hid : w.Knotted id) (opened : List MapId) :
    ¬ w.Ends opened (.object id) :=
  fun ⟨_, hfuel⟩ => not_isSome_of_knotted hid hid hfuel

/-- What is written inside leads to `z`, and nothing on the way is cut. -/
inductive Way (w : World κ σ) (z : Shown κ) (opened : List MapId) : Shown κ → Prop
  | here : Way w z opened z
  | step {x y : Shown κ} (uncut : ¬ x.IsCut opened) (part : w.Shows x y) (rest : Way w z opened y) :
    Way w z opened x

theorem way_of_reaches {z : Shown κ} (h : Relation.ReflTransGen w.Shows x z) : w.Way z [] x := by
  induction h using Relation.ReflTransGen.head_induction_on with
  | refl => exact .here
  | head hpart _ ih =>
    refine .step ?_ hpart ih
    rename_i x _ _
    cases x <;> simp [Shown.IsCut]

/-- A way either avoids a mapping, or can be taken up where it leaves that mapping for good. -/
theorem Way.avoid {z : Shown κ} (h : w.Way z opened x) (m : MapId) :
    w.Way z (m :: opened) x ∨ ∃ y, w.Shows (.mapping m) y ∧ w.Way z (m :: opened) y := by
  induction h with
  | here => exact .inl .here
  | @step x y uncut part rest ih =>
    rcases ih with hway | hleft
    · by_cases hcut : x.IsCut (m :: opened)
      · cases x with
        | mapping m' =>
          rcases List.mem_cons.mp hcut with rfl | hopened
          · exact .inr ⟨y, part, hway⟩
          · exact absurd hopened uncut
        | value | object | layer | stack => exact hcut.elim
      · exact .inl (.step hcut part hway)
    · exact .inr hleft

/-- What leads to something that is never finished is not finished. -/
theorem not_ends_of_way {z : Shown κ} (hz : ∀ opened, ¬ w.Ends opened z) (h : w.Way z opened x) :
    ¬ w.Ends opened x := by
  rintro ⟨fuel, hsome⟩
  induction fuel generalizing x opened with
  | zero =>
    rw [inspect_zero] at hsome
    cases hsome
  | succ fuel ih =>
    cases h with
    | here => exact hz opened ⟨fuel + 1, hsome⟩
    | @step _ y uncut part rest =>
      have hparts := ((inspect_isSome x).mp hsome).resolve_left uncut
      by_cases hunmarked : x.Unmarked
      · rw [Shown.opening_of_unmarked hunmarked] at hparts
        exact ih rest (hparts y part)
      · obtain ⟨m, rfl⟩ := Shown.eq_mapping_of_not_unmarked hunmarked
        rcases rest.avoid m with hway | ⟨y', hpart', hway⟩
        · exact ih hway (hparts y part)
        · exact ih hway (hparts y' hpart')

/-! ## Anything else is finished -/

/-- Without a mapping on the way an object is found below every part above it. -/
theorem directly_of_part {id : ObjectId} (hx : x.Unmarked) (hpart : w.Shows x y)
    (h : Relation.ReflTransGen w.Directly y (.object id)) :
    Relation.TransGen w.Directly x (.object id) := by
  have hy : y.Unmarked := by
    rcases Relation.ReflTransGen.cases_head h with rfl | ⟨_, ⟨-, hy, -⟩, -⟩
    · exact Shown.unmarked_object id
    · exact hy
  exact .head' ⟨hpart, hx, hy⟩ h

open Classical in
/-- The objects that are found below with no mapping on the way. -/
noncomputable def below (w : World κ σ) (x : Shown κ) : Finset Nat :=
  (Finset.range w.objects.size).filter fun i => Relation.ReflTransGen w.Directly x (.object ⟨i⟩)

theorem mem_below {i : Nat} :
    i ∈ w.below x ↔
      i < w.objects.size ∧ Relation.ReflTransGen w.Directly x (.object ⟨i⟩) := by
  simp [below]

theorem below_subset (hx : x.Unmarked) (hpart : w.Shows x y) : w.below y ⊆ w.below x := by
  intro i hi
  obtain ⟨hlt, hway⟩ := mem_below.mp hi
  exact mem_below.mpr ⟨hlt, (directly_of_part hx hpart hway).to_reflTransGen⟩

theorem lt_of_shows {id : ObjectId} (hpart : w.Shows (.object id) y) :
    id.index < w.objects.size := by
  refine Nat.lt_of_not_le fun hle => ?_
  have hparts : w.parts (.object id) = [] := by
    show w.objectParts id = []
    rw [objectParts, object_of_le hle]
  rw [Shows, hparts] at hpart
  cases hpart

/-- An object that is not knotted is not found below its own parts. -/
theorem card_below_lt {id : ObjectId} (hid : ¬ w.Knotted id) (hpart : w.Shows (.object id) y) :
    (w.below y).card < (w.below (.object id)).card := by
  have hunmarked := Shown.unmarked_object (κ := κ) id
  refine Finset.card_lt_card ⟨below_subset hunmarked hpart, fun hsub => hid ?_⟩
  have hself := hsub (mem_below.mpr ⟨lt_of_shows hpart, .refl⟩)
  exact directly_of_part hunmarked hpart (mem_below.mp hself).2

end World

/-- The kinds in the order in which they are written inside each other. -/
def Shown.kind : Shown κ → Nat
  | .stack _ => 3
  | .layer _ => 2
  | .value _ => 1
  | .mapping _ | .object _ => 0

noncomputable def Shown.size : Shown κ → Nat
  | .value v => sizeOf v
  | _ => 0

theorem Shown.unmarked_of_kind {x : Shown κ} (h : 0 < x.kind) : x.Unmarked := by
  cases x with
  | mapping m => cases h
  | value | object | layer | stack => exact fun _ h => h

namespace World

variable {w : World κ σ} {opened : List MapId} {x y : Shown κ}

/-- What is written inside a value, a layer or a stack is of a lower kind or a smaller value. -/
theorem lex_of_part (hx : 0 < x.kind) (hpart : w.Shows x y) :
    Prod.Lex (· < ·) (· < ·) (y.kind, y.size) (x.kind, x.size) := by
  cases x with
  | mapping m => cases hx
  | object id => cases hx
  | value v =>
    cases v with
    | list items =>
      obtain ⟨v, hv, rfl⟩ := List.mem_map.mp hpart
      have hlt : sizeOf v < sizeOf (Value.list items) := by
        have hmem := List.sizeOf_lt_of_mem hv
        simp only [Value.list.sizeOf_spec]
        omega
      exact .right _ hlt
    | map m =>
      obtain rfl := List.mem_singleton.mp hpart
      exact .left _ _ Nat.zero_lt_one
    | object id =>
      obtain rfl := List.mem_singleton.mp hpart
      exact .left _ _ Nat.zero_lt_one
    | none | bool b | int n | float x | str s | function id => cases hpart
  | layer l =>
    cases l with
    | mapping | object | «sealed» =>
      obtain rfl := List.mem_singleton.mp hpart
      exact .left _ _ (by simp [Shown.kind])
  | stack s =>
    rcases List.mem_append.mp hpart with hlayer | hfield
    · obtain ⟨l, -, rfl⟩ := List.mem_map.mp hlayer
      exact .left _ _ (by simp [Shown.kind])
    · obtain ⟨p, -, rfl⟩ := List.mem_map.mp hfield
      exact .left _ _ (by simp [Shown.kind])

/-- What leads to no knot is finished. Each step goes to a mapping that was not open, or past an
object that is not found again, or to something of a lower kind or a smaller value. -/
theorem ends_of_unknotted (opened : List MapId) (x : Shown κ)
    (h : ∀ id, Relation.ReflTransGen w.Shows x (.object id) → ¬ w.Knotted id) :
    w.Ends opened x := by
  by_cases hcut : x.IsCut opened
  · exact ends_of_cut hcut
  · exact ends_of_parts fun y hy =>
      ends_of_unknotted (x.opening opened) y fun id hid => h id (.head hy hid)
termination_by ((w.unopened opened).length, (w.below x).card, x.kind, x.size)
decreasing_by
  by_cases hkind : 0 < x.kind
  · have hunmarked := Shown.unmarked_of_kind hkind
    rw [Shown.opening_of_unmarked hunmarked]
    have hle := Finset.card_le_card (below_subset hunmarked hy)
    refine Prod.Lex.right _ ?_
    rcases Nat.lt_or_eq_of_le hle with hlt | heq
    · exact .left _ _ hlt
    · rw [heq]
      exact .right _ (lex_of_part hkind hy)
  · cases x with
    | mapping m =>
      have hissued : m.index < w.maps.size := by
        refine Nat.lt_of_not_le fun hle => ?_
        obtain ⟨p, hp, -⟩ := List.mem_map.mp hy
        rw [entries_of_le hle] at hp
        cases hp
      exact .left _ _ (length_unopened_cons hissued hcut)
    | object id => exact .right _ (.left _ _ (card_below_lt (h id .refl) hy))
    | value | layer | stack => exact absurd (by simp [Shown.kind]) hkind

/-! ## Stacks that hold their own bundle -/

/-- The bundle of a stack that is closed off is found on that stack with no mapping on the way. -/
def HoldsItself (w : World κ σ) (id : ObjectId) : Prop :=
  ∃ e s, w.object id = .bundle (.enclosure e) ∧ w.enclosures[e.index]? = some (.idle s) ∧
    Relation.ReflTransGen w.Directly (.stack s) (.object id)

/-- With no mapping on the way an object leads to the value of a view or the stack of a bundle. -/
theorem directly_object {id : ObjectId} (h : w.Directly (.object id) y) :
    (∃ v, w.object id = .view v ∧ y = .value v.target) ∨
      ∃ e s, w.object id = .bundle (.enclosure e) ∧ w.enclosures[e.index]? = some (.idle s) ∧
        y = .stack s := by
  obtain ⟨hpart, -, hy⟩ := h
  have hparts : y ∈ w.objectParts id := hpart
  have hmapping : ∀ m, y ≠ .mapping m := by
    rintro m rfl
    exact Shown.not_unmarked_mapping m hy
  unfold objectParts at hparts
  split at hparts
  · cases hparts
  · exact .inl ⟨_, ‹_›, List.mem_singleton.mp hparts⟩
  · exact absurd (List.mem_singleton.mp hparts) (hmapping _)
  · split at hparts
    · exact .inr ⟨_, _, ‹_›, ‹_›, List.mem_singleton.mp hparts⟩
    · cases hparts
  · rcases List.mem_cons.mp hparts with heq | hparts
    · exact absurd heq (hmapping _)
    · exact absurd (List.mem_singleton.mp hparts) (hmapping _)

/-- A value or an object that leads to objects older than `bound` only. -/
def OlderThan (bound : Nat) : Shown κ → Prop
  | .value v => ∀ id ∈ v.objects, id.index < bound
  | .object id => id.index < bound
  | _ => False

/-- A step goes to something older, or to a stack that is closed off. -/
theorem older_of_directly (hw : w.Grounded) {bound : Nat} (hx : OlderThan bound x)
    (h : w.Directly x y) :
    OlderThan bound y ∨ ∃ id e s, x = .object id ∧ w.object id = .bundle (.enclosure e) ∧
      w.enclosures[e.index]? = some (.idle s) ∧ y = .stack s := by
  obtain ⟨hpart, hunmarked⟩ := h
  cases x with
  | value v =>
    refine .inl ?_
    cases v with
    | list items =>
      obtain ⟨u, hu, rfl⟩ := List.mem_map.mp hpart
      exact fun id hid => hx id (Value.mem_objects_list hu hid)
    | object id =>
      obtain rfl := List.mem_singleton.mp hpart
      exact hx id List.mem_cons_self
    | map m =>
      obtain rfl := List.mem_singleton.mp hpart
      exact absurd hunmarked.2 (Shown.not_unmarked_mapping m)
    | none | bool b | int n | float x | str s | function id => cases hpart
  | object id =>
    rcases directly_object ⟨hpart, hunmarked⟩ with
      ⟨v, hview, rfl⟩ | ⟨e, s, hbundle, hidle, rfl⟩
    · exact .inl fun other hother => Nat.lt_trans (hw id v hview other hother) hx
    · exact .inr ⟨id, e, s, rfl, hbundle, hidle, rfl⟩
  | mapping | layer | stack => exact hx.elim

theorem older_or_enclosed (hw : w.Grounded) {id : ObjectId}
    (h : Relation.TransGen w.Directly (.object id) y) :
    OlderThan id.index y ∨ ∃ other e s, w.object other = .bundle (.enclosure e) ∧
      w.enclosures[e.index]? = some (.idle s) ∧
      Relation.ReflTransGen w.Directly (.object id) (.object other) ∧
      Relation.ReflTransGen w.Directly (.stack s) y := by
  induction h with
  | single hstep =>
    rcases directly_object hstep with ⟨v, hview, rfl⟩ | ⟨e, s, hbundle, hidle, rfl⟩
    · exact .inl (hw id v hview)
    · exact .inr ⟨id, e, s, hbundle, hidle, .refl, .refl⟩
  | @tail y z hway hstep ih =>
    rcases ih with holder | ⟨other, e, s, hbundle, hidle, hother, hy⟩
    · rcases older_of_directly hw holder hstep with hz | ⟨other, e, s, rfl, hbundle, hidle, rfl⟩
      · exact .inl hz
      · exact .inr ⟨other, e, s, hbundle, hidle, hway.to_reflTransGen, .refl⟩
    · exact .inr ⟨other, e, s, hbundle, hidle, hother, hy.tail hstep⟩

/-- Where views are made of what there is, a knot goes through a stack that holds its own bundle. -/
theorem Grounded.exists_holdsItself (hw : w.Grounded) {id : ObjectId} (h : w.Knotted id) :
    ∃ other, w.HoldsItself other ∧
      Relation.ReflTransGen w.Directly (.object id) (.object other) := by
  rcases older_or_enclosed hw h with holder | ⟨other, e, s, hbundle, hidle, hother, hid⟩
  · exact absurd holder (Nat.lt_irrefl id.index)
  · exact ⟨other, ⟨e, s, hbundle, hidle, hid.trans hother⟩, hother⟩

theorem HoldsItself.knotted {id : ObjectId} (h : w.HoldsItself id) : w.Knotted id := by
  obtain ⟨e, s, hbundle, hidle, hway⟩ := h
  refine .head' ⟨?_, Shown.unmarked_object id, Shown.unmarked_of_kind (by simp [Shown.kind])⟩ hway
  show _ ∈ w.objectParts id
  rw [objectParts, hbundle]
  dsimp only
  rw [hidle]
  exact List.mem_cons_self

theorem reaches_of_directly (h : Relation.ReflTransGen w.Directly x y) :
    Relation.ReflTransGen w.Shows x y := by
  induction h with
  | refl => exact .refl
  | tail _ hstep ih => exact ih.tail hstep.1

/-- A text is finished once and for all. -/
theorem finished_iff :
    (∃ text n, ∀ fuel, n ≤ fuel → w.inspect fuel [] x = some text) ↔ w.Ends [] x := by
  constructor
  · rintro ⟨text, n, hall⟩
    exact ⟨n, Option.isSome_of_eq_some (hall n (Nat.le_refl n))⟩
  · rintro ⟨n, hsome⟩
    obtain ⟨text, htext⟩ := Option.isSome_iff_exists.mp hsome
    exact ⟨text, n, fun fuel hle => inspect_le htext hle⟩

/-- What is finished has no knot written inside it. -/
theorem Ends.unknotted (h : w.Ends [] x) {id : ObjectId}
    (hid : Relation.ReflTransGen w.Shows x (.object id)) : ¬ w.Knotted id :=
  fun hknot => not_ends_of_way (not_ends_of_knotted hknot) (way_of_reaches hid) h

/-! ## Main theorem -/

/-- **A text is finished exactly if no knot is written inside it**, and then it is one and the same
text with any fuel that is enough. Where views are made of what there is, that is exactly if no
bundle that is written inside it is found, with no mapping on the way, on the stack it reads. -/
theorem inspect_ends_iff (w : World κ σ) (x : Shown κ) :
    ((∃ text n, ∀ fuel, n ≤ fuel → w.inspect fuel [] x = some text) ↔
      ∀ id, Relation.ReflTransGen w.Shows x (.object id) → ¬ w.Knotted id) ∧
    (w.Grounded →
      ((∃ text n, ∀ fuel, n ≤ fuel → w.inspect fuel [] x = some text) ↔
        ∀ id, Relation.ReflTransGen w.Shows x (.object id) → ¬ w.HoldsItself id)) := by
  rw [finished_iff]
  refine ⟨⟨fun h id hid => h.unknotted hid, ends_of_unknotted [] x⟩, fun hw => ⟨?_, fun h => ?_⟩⟩
  · intro h id hid hholds
    exact h.unknotted hid hholds.knotted
  · refine ends_of_unknotted [] x fun id hid hknot => ?_
    obtain ⟨other, hholds, hway⟩ := hw.exists_holdsItself hknot
    exact h other (hid.trans (reaches_of_directly hway)) hholds

end World

/-- A bundle on whose stack there is a mapping with the bundle in it. -/
def tameWorld : World Unit Unit where
  maps := #[.ofList [("self", .object ⟨0⟩)]]
  objects := #[.bundle (.enclosure ⟨0⟩)]
  enclosures := #[.idle { layers := [.mapping ⟨0⟩] }]
  host := ()

theorem tameWorld_grounded : tameWorld.Grounded := by
  intro id v hv
  obtain ⟨_ | i⟩ := id
  · cases hv
  · cases hv

/-- From that stack nothing is reached without passing the mapping. -/
theorem tameWorld_not_holdsItself (id : ObjectId) : ¬ tameWorld.HoldsItself id := by
  rintro ⟨⟨_ | e⟩, s, -, hidle, hway⟩
  · cases hidle
    rcases Relation.ReflTransGen.cases_head hway with heq | ⟨y, ⟨hlayer, -⟩, hrest⟩
    · cases heq
    · obtain rfl := List.mem_singleton.mp hlayer
      rcases Relation.ReflTransGen.cases_head hrest with heq | ⟨z, ⟨hmapping, -, hz⟩, -⟩
      · cases heq
      · obtain rfl := List.mem_singleton.mp hmapping
        exact Shown.not_unmarked_mapping ⟨0⟩ hz
  · cases hidle

/-- Its text is finished: the mapping is cut where it occurs inside itself. -/
theorem tameWorld_inspect_ends :
    tameWorld.Grounded ∧ (∀ id, Relation.ReflTransGen tameWorld.Shows (.object ⟨0⟩) (.object id) →
      ¬ tameWorld.HoldsItself id) ∧
    ∃ text n, ∀ fuel, n ≤ fuel → tameWorld.inspect fuel [] (.object ⟨0⟩) = some text := by
  have hfree : ∀ id, Relation.ReflTransGen tameWorld.Shows (.object ⟨0⟩) (.object id) →
      ¬ tameWorld.HoldsItself id := fun id _ => tameWorld_not_holdsItself id
  exact ⟨tameWorld_grounded, hfree,
    ((World.inspect_ends_iff tameWorld (.object ⟨0⟩)).2 tameWorld_grounded).mpr hfree⟩

/-! ## A stack that comes to hold its own bundle -/

/-- A host that keeps a value. Its objects store it on the stack on which they are looked up. -/
def keeperHost : Host Unit Value where
  readAttr _ _ := .answer .none
  readItem _ _ := .answer none
  call _ := .answer .none
  apply _ _ := .answer .none
  hook _ := do
    let kept ← Script.see fun f => f.world.host
    Script.request (.writeField "self" kept)
    pure (some .none)
  access _ _ _ := .answer .none
  evaluate _ := .answer .none

/-- Bundle a mapping with such an object, keep the bundle, and read the object as an attribute. -/
def keeperScript : Script Unit Value Value := do
  let keeper ← Script.request (.newHost { typeName := "keeper", hook := some () })
  let m ← Script.request (.newMap (.ofList [("a", .object keeper)]))
  let arguments ← Script.request (.bundle [.map m] none)
  let bundle := match arguments with
    | .list (v :: _) => v
    | v => v
  Script.keep bundle (.answer ())
  discard (Script.request (.readAttr bundle "a"))
  pure bundle

/-- The stack on which the object was looked up. -/
def keeperStack : Stack Unit where
  layers := [.mapping ⟨0⟩]
  fields := .ofList [("self", .object ⟨1⟩)]

/-- What the script leaves. -/
def keeperWorld : World Unit Value where
  maps := #[.ofList [("a", .object ⟨0⟩)]]
  objects := #[.host { typeName := "keeper", hook := some () }, .bundle (.enclosure ⟨0⟩)]
  enclosures := #[.idle keeperStack]
  host := .object ⟨1⟩
  journal := [.searched (.mapping ⟨0⟩) "a"]

theorem keeperWorld_holdsItself : keeperWorld.HoldsItself ⟨1⟩ := by
  have hfields : keeperStack.fields.toList = [("self", .object ⟨1⟩)] := rfl
  refine ⟨⟨0⟩, keeperStack, rfl, rfl, ?_⟩
  have hvalue : keeperWorld.Directly (.stack keeperStack) (.value (.object ⟨1⟩)) := by
    refine ⟨List.mem_append_right _ ?_, fun _ h => h, fun _ h => h⟩
    rw [hfields]
    exact List.mem_cons_self
  have hobject : keeperWorld.Directly (.value (.object ⟨1⟩)) (.object ⟨1⟩) :=
    ⟨List.mem_cons_self, fun _ h => h, Shown.unmarked_object ⟨1⟩⟩
  exact .tail (.single hvalue) hobject

/-- After it, the text of the bundle is not finished with any fuel. -/
theorem keeperWorld_never_finished :
    keeperScript.run (keeperHost.dispatch 2) ⟨⟨{ host := .none }, {}⟩, {}⟩ =
      some (.ok (.object ⟨1⟩), ⟨⟨keeperWorld, {}⟩, {}⟩) ∧
    ∀ fuel, keeperWorld.inspectValue fuel [] (.object ⟨1⟩) = none := by
  refine ⟨by cbv, fun fuel => ?_⟩
  have hway : Relation.TransGen keeperWorld.Directly (.value (.object ⟨1⟩)) (.object ⟨1⟩) :=
    .single ⟨List.mem_cons_self, fun _ h => h, Shown.unmarked_object ⟨1⟩⟩
  exact Option.not_isSome_iff_eq_none.mp
    (World.not_isSome_of_knotted keeperWorld_holdsItself.knotted hway)

end LayeredScope
