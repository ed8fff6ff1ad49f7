import LayeredScope.Attribute

/-!
# Worlds that only grow

Rendering issues mappings and views of its own and fills those mappings. What was issued before it
began stays as it was.

* `World.KeepsBelow cut` — no object changed, and no mapping issued before the `cut`-th.
* `World.Grows` — nothing that was issued changed.
-/

namespace LayeredScope

variable {κ σ : Type}

namespace World

/-- No object of `w` and none of its first `cut` mappings is different in `w'`, which may hold more
of both. -/
structure KeepsBelow (cut : Nat) (w w' : World κ σ) : Prop where
  maps_le : w.maps.size ≤ w'.maps.size
  entries : ∀ m : MapId, m.index < cut → w'.entries m = w.entries m
  objects_le : w.objects.size ≤ w'.objects.size
  object : ∀ id : ObjectId, id.index < w.objects.size → w'.object id = w.object id

/-- Nothing that was issued in `w` is different in `w'`. -/
def Grows (w w' : World κ σ) : Prop := w.KeepsBelow w.maps.size w'

namespace KeepsBelow

variable {cut : Nat} {w w' w'' : World κ σ}

theorem refl (cut : Nat) (w : World κ σ) : w.KeepsBelow cut w :=
  ⟨Nat.le_refl _, fun _ _ => rfl, Nat.le_refl _, fun _ _ => rfl⟩

theorem trans (h : w.KeepsBelow cut w') (h' : w'.KeepsBelow cut w'') : w.KeepsBelow cut w'' where
  maps_le := Nat.le_trans h.maps_le h'.maps_le
  entries m hm := (h'.entries m hm).trans (h.entries m hm)
  objects_le := Nat.le_trans h.objects_le h'.objects_le
  object id hid :=
    (h'.object id (Nat.lt_of_lt_of_le hid h.objects_le)).trans (h.object id hid)

theorem mono (h : w.KeepsBelow cut w') {cut' : Nat} (hle : cut' ≤ cut) : w.KeepsBelow cut' w' :=
  ⟨h.maps_le, fun m hm => h.entries m (Nat.lt_of_lt_of_le hm hle), h.objects_le, h.object⟩

/-- Nothing is issued by entering events into the journal. -/
theorem of_journal (cut : Nat) (w : World κ σ) (events : List Event) :
    w.KeepsBelow cut { w with journal := events } :=
  ⟨Nat.le_refl _, fun _ _ => rfl, Nat.le_refl _, fun _ _ => rfl⟩

/-- A mapping that was issued late enough may be written. -/
theorem insert {m : MapId} (hm : cut ≤ m.index) (key : String) (value : Value) :
    w.KeepsBelow cut (w.insert m key value) := by
  refine ⟨?_, ?_, Nat.le_refl _, fun _ _ => rfl⟩
  · simp [World.insert, setEntries]
  · intro other hother
    by_cases h : m.index < w.maps.size
    · rw [entries_insert h, if_neg]
      intro heq
      rw [heq] at hother
      omega
    · simp [World.insert, setEntries, World.entries, Array.setIfInBounds, h]

end KeepsBelow

namespace Grows

variable {w w' w'' : World κ σ}

theorem refl (w : World κ σ) : w.Grows w := KeepsBelow.refl _ w

/-- A growing world goes on growing as long as what came before it is kept. -/
theorem trans_keepsBelow {cut : Nat} (h : w.Grows w') (h' : w'.KeepsBelow cut w'')
    (hcut : w.maps.size ≤ cut) : w.Grows w'' :=
  KeepsBelow.trans h (h'.mono hcut)

theorem trans (h : w.Grows w') (h' : w'.Grows w'') : w.Grows w'' :=
  h.trans_keepsBelow h' h.maps_le

theorem newMap (w : World κ σ) (entries : Entries Value) : w.Grows (w.newMap entries).2 := by
  refine ⟨?_, fun m hm => entries_newMap_of_lt hm entries, Nat.le_refl _, fun _ _ => rfl⟩
  simp [World.newMap]

theorem newObject (w : World κ σ) (o : Object κ) : w.Grows (w.newObject o).2 := by
  refine ⟨Nat.le_refl _, fun _ _ => rfl, ?_, ?_⟩
  · simp [World.newObject]
  · intro id hid
    have hlt : id.index < w.objects.size + 1 := by omega
    simp [World.newObject, World.object, Array.getD, hid, hlt, Array.getElem_push]

end Grows

end World

end LayeredScope
