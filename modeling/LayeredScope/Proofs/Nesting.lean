import LayeredScope.World

/-!
# Open bodies

The journal says when the body of a template began and when it ended. Its latest event stands
first, so the events up to some moment are a suffix of it.

* `Event.openBodies` — how many bodies are open after some events.
* `Event.NestedWithin room` — all bodies are closed at the end, and at no moment were more than
  `room` of them open.
-/

namespace LayeredScope

namespace Event

/-- How many more bodies have begun than have ended. -/
def openBodies : List Event → Int
  | [] => 0
  | .opened _ :: earlier => openBodies earlier + 1
  | .closed :: earlier => openBodies earlier - 1
  | _ :: earlier => openBodies earlier

theorem openBodies_append (later earlier : List Event) :
    openBodies (later ++ earlier) = openBodies later + openBodies earlier := by
  induction later with
  | nil => simp [openBodies]
  | cons event later ih =>
    cases event <;> simp only [List.cons_append, openBodies, ih] <;> omega

/-- Every body that began has ended, and at no moment were more than `room` of them open. -/
structure NestedWithin (room : Nat) (events : List Event) : Prop where
  balanced : openBodies events = 0
  bounded : ∀ later earlier, events = later ++ earlier → openBodies earlier ≤ room

namespace NestedWithin

variable {room : Nat} {events later earlier : List Event}

theorem nil (room : Nat) : NestedWithin room [] := by
  refine ⟨rfl, fun later earlier h => ?_⟩
  obtain ⟨-, rfl⟩ := List.append_eq_nil_iff.mp h.symm
  simp [openBodies]

theorem mono (h : NestedWithin room events) {room' : Nat} (hle : room ≤ room') :
    NestedWithin room' events :=
  ⟨h.balanced, fun later earlier he => by have := h.bounded later earlier he; omega⟩

/-- An event between bodies. -/
theorem single {event : Event} (h : openBodies [event] = 0) (room : Nat) :
    NestedWithin room [event] := by
  refine ⟨h, fun later earlier he => ?_⟩
  rcases List.append_eq_singleton_iff.mp he.symm with ⟨-, rfl⟩ | ⟨-, rfl⟩
  · rw [h]
    omega
  · simp [openBodies]

/-- One stretch of events after another: what came before has closed its bodies. -/
theorem append (hl : NestedWithin room later) (he : NestedWithin room earlier) :
    NestedWithin room (later ++ earlier) := by
  constructor
  · rw [openBodies_append, hl.balanced, he.balanced]
    rfl
  · intro after before h
    rcases List.append_eq_append_iff.mp h with ⟨middle, -, hearlier⟩ | ⟨middle, hlater, hbefore⟩
    · exact he.bounded middle before hearlier
    · rw [hbefore, openBodies_append, he.balanced]
      have := hl.bounded after middle hlater
      omega

/-- A body around a stretch of events takes one more room. -/
theorem bracket (h : NestedWithin room events) (level : Int64) :
    NestedWithin (room + 1) (.closed :: (events ++ [.opened level])) := by
  have hopened : openBodies [.opened level] = 1 := rfl
  constructor
  · show openBodies (events ++ [.opened level]) - 1 = 0
    rw [openBodies_append, h.balanced, hopened]
    rfl
  · intro after before he
    cases after with
    | nil =>
      rw [List.nil_append] at he
      rw [← he]
      show openBodies (events ++ [.opened level]) - 1 ≤ _
      rw [openBodies_append, h.balanced, hopened]
      omega
    | cons event after =>
      obtain ⟨-, he⟩ := List.cons.inj he
      rcases List.append_eq_append_iff.mp he with ⟨middle, -, hbefore⟩ | ⟨middle, hevents, hbefore⟩
      · rcases List.append_eq_singleton_iff.mp hbefore.symm with ⟨-, rfl⟩ | ⟨-, rfl⟩
        · rw [hopened]
          omega
        · show (0 : Int) ≤ _
          omega
      · rw [hbefore, openBodies_append, hopened]
        have := h.bounded after middle hevents
        omega

end NestedWithin

end Event

end LayeredScope
