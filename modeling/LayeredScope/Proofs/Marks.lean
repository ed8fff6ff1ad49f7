import LayeredScope.Proofs.Unfolding

/-!
# One set of marks

A text can be written piece by piece, with one set of marks that all the pieces share: a mapping is
marked when it is opened and no longer when it is closed, and one that is marked is not opened
again. The set is changed in the middle of lists, fields, views and bundles alike, so nothing but
the order of the steps says that what one piece marks is gone before the next one begins.

* `World.Prints` — a value is written from one set of marks, and leaves another.
* `World.Prints.marks_eq` — every piece leaves the marks that it found.
* `World.prints_iff` — so it writes the text of the tree under the marked mappings.
* `World.PrintsAll` — values written one after the other.
* `World.display_structural` — **a value is displayed as its tree is written**, however the heap is
  shared and whatever was displayed before.
-/

namespace LayeredScope

variable {κ σ : Type}

/-- Which mappings are marked. -/
abbrev Marks := MapId → Bool

namespace Marks

def none : Marks := fun _ => false

def mark (marks : Marks) (m : MapId) : Marks := fun other => decide (other = m) || marks other

def unmark (marks : Marks) (m : MapId) : Marks := fun other => decide (other ≠ m) && marks other

theorem mark_iff {marks : Marks} {m other : MapId} :
    marks.mark m other = true ↔ other = m ∨ marks other = true := by
  simp [mark]

/-- Taking away a mark that was not there before leaves what was there. -/
theorem unmark_mark {marks : Marks} {m : MapId} (fresh : marks m = false) :
    (marks.mark m).unmark m = marks := by
  funext other
  by_cases h : other = m
  · simp [unmark, mark, h, fresh]
  · simp [unmark, mark, h]

end Marks

namespace World

/-- A value is written, from some marks to others. Between the items of a list, and between the
fields of a mapping, the marks are those that the pieces so far have left. -/
inductive Prints (w : World κ σ) : Marks → Value → String → Marks → Prop
  | atom {marks : Marks} {v : Value} {t : String} (h : w.atom? v = some t) :
      Prints w marks v t marks
  | list {marks marks' : Marks} {items : List Value} {texts : List String}
      (between : Nat → Marks) (first : between 0 = marks)
      (last : between items.length = marks') (length : texts.length = items.length)
      (each : ∀ (i : Nat) v t, items[i]? = some v → texts[i]? = some t →
        Prints w (between i) v t (between (i + 1))) :
      Prints w marks (.list items) ("[" ++ ", ".intercalate texts ++ "]") marks'
  /-- A mapping that is marked is not opened. -/
  | cut {marks : Marks} {m : MapId} (marked : marks m = true) :
      Prints w marks (.map m) "\x7b...\x7d" marks
  /-- Any other is marked, written field by field, and the mark is taken away. -/
  | mapping {marks marks' : Marks} {m : MapId} {texts : List String} (fresh : marks m = false)
      (between : Nat → Marks) (first : between 0 = marks.mark m)
      (last : (between (w.entries m).toList.length).unmark m = marks')
      (length : texts.length = (w.entries m).toList.length)
      (each : ∀ (i : Nat) p t, (w.entries m).toList[i]? = some p → texts[i]? = some t →
        Prints w (between i) p.2 t (between (i + 1))) :
      Prints w marks (.map m) ("\x7b" ++ ", ".intercalate
        (((w.entries m).keys.zip texts).map fun q => q.1 ++ ": " ++ q.2) ++ "\x7d") marks'
  | view {marks marks' : Marks} {id : ObjectId} {v : ObjectView κ} {t : String}
      (h : w.object id = .view v) (target : Prints w marks v.target t marks') :
      Prints w marks (.object id) ("SingleScopeView" ++ "(" ++ t ++ ")") marks'
  | bundle {marks marks' : Marks} {id : ObjectId} {m : MapId} {t : String}
      (h : w.object id = .bundle (.mapping m)) (keywords : Prints w marks (.map m) t marks') :
      Prints w marks (.object id) ("AttributeView" ++ "(" ++ t ++ ")") marks'

variable {w : World κ σ} {marks marks' : Marks} {v : Value} {t : String}

/-! ## No mark is lost or left behind -/

/-- Pieces that leave what they find leave what was there before the first. -/
theorem between_eq {α β : Type} {l : List α} {texts : List β} {between : Nat → Marks}
    (length : texts.length = l.length)
    (each : ∀ (i : Nat) a t, l[i]? = some a → texts[i]? = some t → between (i + 1) = between i)
    (i : Nat) (hi : i ≤ l.length) : between i = between 0 := by
  induction i with
  | zero => rfl
  | succ i ih =>
    have hstep := each i l[i] texts[i] (List.getElem?_eq_getElem (by omega))
      (List.getElem?_eq_getElem (by omega))
    rw [hstep, ih (by omega)]

/-- **Every piece leaves the marks that it found.** -/
theorem Prints.marks_eq (h : w.Prints marks v t marks') : marks' = marks := by
  induction h with
  | atom h => rfl
  | list between first last length each ih =>
    rw [← last, between_eq length ih _ (Nat.le_refl _), first]
  | cut marked => rfl
  | mapping fresh between first last length each ih =>
    rw [← last, between_eq length ih _ (Nat.le_refl _), first, Marks.unmark_mark fresh]
  | view h target ih => exact ih
  | bundle h keywords ih => exact ih

/-! ## What is written -/

/-- Fields are written key by key. -/
theorem writeFields_zip (keys : List String) (sketches : List Sketch) :
    Sketch.writeFields (keys.zip sketches) =
      (keys.zip (sketches.map Sketch.write)).map fun q => q.1 ++ ": " ++ q.2 := by
  rw [Sketch.writeFields_eq, List.zip_map_right, List.map_map]
  rfl

/-- A tree is written under its open mappings, marked. -/
theorem Prints.of_unfolds {path : List MapId} {s : Sketch} (h : w.Unfolds path v s)
    (hmarks : ∀ m, m ∈ path ↔ marks m = true) : w.Prints marks v s.write marks := by
  induction h generalizing marks with
  | atom h =>
    rw [Sketch.write]
    exact .atom h
  | list length each ih =>
    rw [Sketch.write, Sketch.writeItems_eq]
    refine .list (fun _ => marks) rfl rfl (by rw [List.length_map, length]) fun i u t hu ht => ?_
    rw [List.getElem?_map, Option.map_eq_some_iff] at ht
    obtain ⟨s, hs, rfl⟩ := ht
    exact ih i u s hu hs hmarks
  | cut opened =>
    rw [Sketch.write]
    exact .cut ((hmarks _).mp opened)
  | @mapping path m sketches fresh length each ih =>
    have hfresh : marks m = false := Bool.eq_false_iff.mpr (mt (hmarks m).mpr fresh)
    rw [Sketch.write, writeFields_zip]
    refine .mapping hfresh (fun _ => marks.mark m) rfl (Marks.unmark_mark hfresh)
      (by rw [List.length_map, length]) fun i p t hp ht => ?_
    rw [List.getElem?_map, Option.map_eq_some_iff] at ht
    obtain ⟨s, hs, rfl⟩ := ht
    refine ih i p s hp hs fun other => ?_
    rw [List.mem_cons, Marks.mark_iff, hmarks other]
  | view h target ih =>
    rw [Sketch.write]
    exact .view h (ih hmarks)
  | bundle h keywords ih =>
    rw [Sketch.write]
    exact .bundle h (ih hmarks)

/-- Texts beside a list of trees are those of the trees. -/
theorem texts_eq {α : Type} {l : List α} {texts : List String} {sketches : List Sketch}
    (length : texts.length = l.length) (length' : sketches.length = l.length)
    (each : ∀ (i : Nat) a t s, l[i]? = some a → texts[i]? = some t → sketches[i]? = some s →
      t = s.write) : texts = sketches.map Sketch.write := by
  refine eq_of_each length (by rw [List.length_map, length']) fun i a t t' ha ht ht' => ?_
  rw [List.getElem?_map, Option.map_eq_some_iff] at ht'
  obtain ⟨s, hs, rfl⟩ := ht'
  exact each i a t s ha ht hs

/-- What is written is the text of the tree under the marked mappings. -/
theorem Prints.eq_write {path : List MapId} {s : Sketch} (h : w.Prints marks v t marks')
    (hmarks : ∀ m, m ∈ path ↔ marks m = true) (hs : w.Unfolds path v s) : t = s.write := by
  induction h generalizing path s with
  | atom h => rw [hs.unique (.atom h), Sketch.write]
  | @list marks marks' items texts between first last length each ih =>
    cases hs with
    | atom h => cases h
    | list length' each' =>
      rw [Sketch.write, Sketch.writeItems_eq]
      congr 3
      refine texts_eq length length' fun i u t s hu ht hs => ih i u t hu ht (fun m => ?_)
        (each' i u s hu hs)
      have hi := (List.getElem?_eq_some_iff.mp hu).1
      rw [between_eq length (fun i a t ha ht => (each i a t ha ht).marks_eq) i (Nat.le_of_lt hi),
        first]
      exact hmarks m
  | cut marked => rw [hs.unique (.cut ((hmarks _).mpr marked)), Sketch.write]
  | @mapping marks marks' m texts fresh between first last length each ih =>
    cases hs with
    | atom h => cases h
    | cut opened => exact absurd ((hmarks m).mp opened) (Bool.eq_false_iff.mp fresh)
    | mapping fresh' length' each' =>
      rw [Sketch.write, writeFields_zip]
      congr 5
      refine texts_eq length length' fun i p t s hp ht hs => ih i p t hp ht (fun other => ?_)
        (each' i p s hp hs)
      have hi := (List.getElem?_eq_some_iff.mp hp).1
      rw [between_eq length (fun i a t ha ht => (each i a t ha ht).marks_eq) i (Nat.le_of_lt hi),
        first, List.mem_cons, Marks.mark_iff, hmarks other]
  | view hobject target ih =>
    cases hs with
    | atom h => cases (atom?_view hobject).symm.trans h
    | view hobject' target' =>
      cases hobject.symm.trans hobject'
      rw [Sketch.write, ih hmarks target']
    | bundle hobject' keywords' => cases hobject.symm.trans hobject'
  | bundle hobject keywords ih =>
    cases hs with
    | atom h => cases (atom?_bundle hobject).symm.trans h
    | view hobject' target' => cases hobject.symm.trans hobject'
    | bundle hobject' keywords' =>
      cases hobject.symm.trans hobject'
      rw [Sketch.write, ih hmarks keywords']

/-- From no marks on, a value is written as it is displayed, and no marks are left. -/
theorem prints_iff (hw : w.Grounded) :
    w.Prints .none v t marks' ↔ t = w.display v ∧ marks' = .none := by
  obtain ⟨s, hs, htext⟩ := exists_unfolds hw v
  have hnone (m : MapId) : m ∈ ([] : List MapId) ↔ Marks.none m = true := by simp [Marks.none]
  constructor
  · intro h
    rw [htext]
    exact ⟨h.eq_write hnone hs, h.marks_eq⟩
  · rintro ⟨rfl, rfl⟩
    rw [htext]
    exact .of_unfolds hs hnone

/-- Values are written one after the other. -/
inductive PrintsAll (w : World κ σ) :
    Marks → List Value → List String → Marks → Prop
  | nil (marks : Marks) : PrintsAll w marks [] [] marks
  | cons {marks marks₁ marks₂ : Marks} {v : Value} {vs : List Value} {t : String}
      {texts : List String} (first : w.Prints marks v t marks₁)
      (rest : PrintsAll w marks₁ vs texts marks₂) :
      PrintsAll w marks (v :: vs) (t :: texts) marks₂

theorem printsAll_iff (hw : w.Grounded) {vs : List Value} {texts : List String} :
    w.PrintsAll .none vs texts marks' ↔ texts = vs.map w.display ∧ marks' = .none := by
  induction vs generalizing texts with
  | nil =>
    constructor
    · rintro ⟨⟩
      exact ⟨rfl, rfl⟩
    · rintro ⟨rfl, rfl⟩
      exact .nil .none
  | cons v vs ih =>
    constructor
    · rintro ⟨⟩
      next marks₁ t texts first rest =>
      obtain ⟨rfl, rfl⟩ := (prints_iff hw).mp first
      obtain ⟨rfl, rfl⟩ := ih.mp rest
      exact ⟨rfl, rfl⟩
    · rintro ⟨rfl, rfl⟩
      exact .cons ((prints_iff hw).mpr ⟨rfl, rfl⟩) (ih.mpr ⟨rfl, rfl⟩)

/-! ## Main theorem -/

/-- **What a value is displayed as.** Whatever is shared and whatever is found inside itself, a
value has exactly one tree, in which a mapping is cut exactly where it is open, and it is displayed
as the tree is written. Nothing is cut if no mapping inside the value is found inside itself. The
items of a list are displayed as they are alone, so one that stands there twice is written twice.
And one set of marks does: values that are written one after the other from no marks on are written
as they are displayed, in any order and any number of times, and no marks are left. -/
theorem display_structural (hw : w.Grounded) :
    (∀ v, ∃ s, (∀ s', w.Unfolds [] v s' ↔ s' = s) ∧ w.display v = s.write ∧
      (w.Acyclic v → s.Whole)) ∧
    (∀ items, w.display (.list items) = "[" ++ ", ".intercalate (items.map w.display) ++ "]") ∧
    ∀ vs texts marks', w.PrintsAll .none vs texts marks' ↔
      texts = vs.map w.display ∧ marks' = .none := by
  refine ⟨fun v => ?_, fun items => ?_, fun vs texts marks' => printsAll_iff hw⟩
  · obtain ⟨s, hs, htext⟩ := exists_unfolds hw v
    refine ⟨s, fun s' => ⟨fun hs' => hs'.unique hs, ?_⟩, htext, hs.whole (by simp)⟩
    rintro rfl
    exact hs
  · rw [display, displayIn, displayItems_eq]
    rfl

/-- A mapping in which a view of the mapping stands, and a bundle over it, beside one that holds
nothing else. -/
def knottedWorld : World Unit Unit :=
  let maps := #[.ofList [("self", .map ⟨0⟩), ("seen", .object ⟨0⟩), ("args", .object ⟨1⟩)],
    .ofList [("name", .str "ada")]]
  let viewed := (World.newView { maps, host := () } (.map ⟨0⟩) none {}).2
  (viewed.newObject (.bundle (.mapping ⟨0⟩))).2

theorem knottedWorld_grounded : knottedWorld.Grounded := by
  refine Grounded.newObject (Grounded.newView ?_ (by simp [Value.objects]) none {}) (by simp)
  intro id v hv
  cases (object_of_le (Nat.zero_le _)).symm.trans hv

/-- The mapping is cut wherever it is found inside itself, and the other one nowhere, also where it
is written again. -/
theorem knottedWorld_display :
    knottedWorld.Grounded ∧
    knottedWorld.PrintsAll .none [.map ⟨1⟩, .map ⟨0⟩, .list [.map ⟨1⟩, .map ⟨1⟩]]
      ["\x7bname: ada\x7d",
        "\x7bargs: AttributeView(\x7b...\x7d), seen: SingleScopeView(\x7b...\x7d), self: \x7b...\x7d\x7d",
        "[\x7bname: ada\x7d, \x7bname: ada\x7d]"] .none := by
  refine ⟨knottedWorld_grounded,
    ((display_structural knottedWorld_grounded).2.2 _ _ _).mpr ⟨?_, rfl⟩⟩
  have hknot : (knottedWorld.entries ⟨0⟩).toList =
    [("args", .object ⟨1⟩), ("seen", .object ⟨0⟩), ("self", .map ⟨0⟩)] := rfl
  have hplain : (knottedWorld.entries ⟨1⟩).toList = [("name", .str "ada")] := rfl
  have hsize : knottedWorld.maps.size = 2 := rfl
  have hview : knottedWorld.object ⟨0⟩ =
    .view { target := .map ⟨0⟩, accessor := none, reserved := {}, memory := ∅ } := rfl
  have hbundle : knottedWorld.object ⟨1⟩ = .bundle (.mapping ⟨0⟩) := rfl
  have hobjects : knottedWorld.objects.size = 2 := rfl
  simp [display, displayIn, displayMap, displayItems, hknot, hplain, hsize, hview, hbundle,
    hobjects]

end World

end LayeredScope
