import LayeredScope.Proofs.Law.Programs

/-!
# Closed-off stacks

A bundle of arguments has a stack of its own, which is handed out while it is read and given back
afterwards.

* `World.EnclosuresKept` — a stack that was idle is idle again, with the same accessor and the same
  reserved names; one that is being read still is.
* `Law.enclosures` — **every run keeps closed-off stacks so.**
-/

namespace LayeredScope

variable {κ σ α : Type}

/-- Closed-off stacks are idle if they were, and read if they were; an idle one has the accessor and
the reserved names that it had. -/
structure World.EnclosuresKept (w w' : World κ σ) : Prop where
  idle : ∀ (i : Nat) (stack : Stack κ), w.enclosures[i]? = some (.idle stack) →
    ∃ stack' : Stack κ, w'.enclosures[i]? = some (.idle stack') ∧
      stack'.accessor = stack.accessor ∧ stack'.reserved = stack.reserved
  reading : ∀ i : Nat, w.enclosures[i]? = some .reading → w'.enclosures[i]? = some .reading

namespace World

variable {w w' w'' : World κ σ}

theorem enclosures_setEnclosure_self {id : EnclosureId} {e : Enclosure κ}
    (h : w.enclosures[id.index]? = some e) (e' : Enclosure κ) :
    (w.setEnclosure id e').enclosures[id.index]? = some e' := by
  have hlt : id.index < w.enclosures.size := (Array.getElem?_eq_some_iff.mp h).1
  simp [setEnclosure, hlt]

theorem enclosures_setEnclosure_of_ne {id : EnclosureId} {i : Nat} (h : i ≠ id.index)
    (e : Enclosure κ) : (w.setEnclosure id e).enclosures[i]? = w.enclosures[i]? :=
  Array.getElem?_setIfInBounds_ne h.symm

namespace EnclosuresKept

theorem of_eq (h : w'.enclosures = w.enclosures) : w.EnclosuresKept w' := by
  refine ⟨fun i stack hi => ⟨stack, ?_, rfl, rfl⟩, fun i hi => ?_⟩
  · rw [h, hi]
  · rw [h, hi]

theorem refl (w : World κ σ) : w.EnclosuresKept w := of_eq rfl

theorem trans (h : w.EnclosuresKept w') (h' : w'.EnclosuresKept w'') : w.EnclosuresKept w'' := by
  refine ⟨fun i stack hi => ?_, fun i hi => h'.reading i (h.reading i hi)⟩
  obtain ⟨stack', hi', haccessor, hreserved⟩ := h.idle i stack hi
  obtain ⟨stack'', hi'', haccessor', hreserved'⟩ := h'.idle i stack' hi'
  exact ⟨stack'', hi'', haccessor'.trans haccessor, hreserved'.trans hreserved⟩

theorem newEnclosure (w : World κ σ) (stack : Stack κ) :
    w.EnclosuresKept (w.newEnclosure stack).2 := by
  have hold {i : Nat} {e : Enclosure κ} (hi : w.enclosures[i]? = some e) :
      (w.newEnclosure stack).2.enclosures[i]? = some e := by
    have hlt : i < w.enclosures.size := (Array.getElem?_eq_some_iff.mp hi).1
    show (w.enclosures.push (.idle stack))[i]? = some e
    rw [Array.getElem?_push, if_neg (by omega), hi]
  exact ⟨fun i stack hi => ⟨stack, hold hi, rfl, rfl⟩, fun i hi => hold hi⟩

/-- A stack that was handed out and is given back with its accessor and its reserved names. -/
theorem giveBack {id : EnclosureId} {stack : Stack κ} {s : Session κ σ}
    (hidle : w.enclosures[id.index]? = some (.idle stack))
    (h : (w.setEnclosure id .reading).EnclosuresKept s.world)
    (haccessor : s.stack.accessor = stack.accessor)
    (hreserved : s.stack.reserved = stack.reserved) :
    w.EnclosuresKept (s.world.setEnclosure id (.idle s.stack)) := by
  have hreading : s.world.enclosures[id.index]? = some .reading :=
    h.reading id.index (enclosures_setEnclosure_self hidle .reading)
  refine ⟨fun i st hi => ?_, fun i hi => ?_⟩
  · by_cases hsame : i = id.index
    · subst hsame
      cases hidle.symm.trans hi
      exact ⟨s.stack, enclosures_setEnclosure_self hreading _, haccessor, hreserved⟩
    · obtain ⟨st', hi', hkept⟩ := h.idle i st (by rw [enclosures_setEnclosure_of_ne hsame, hi])
      exact ⟨st', by rw [enclosures_setEnclosure_of_ne hsame, hi'], hkept⟩
  · have hsame : i ≠ id.index := by
      rintro rfl
      rw [hidle] at hi
      cases hi
    rw [enclosures_setEnclosure_of_ne hsame]
    exact h.reading i (by rw [enclosures_setEnclosure_of_ne hsame, hi])

end EnclosuresKept

end World

/-! ## The law -/

/-- Closed-off stacks are kept. -/
def Law.enclosures : Law (World κ σ) where
  Holds _ := True
  Leads := World.EnclosuresKept
  refl := .refl
  trans := .trans

theorem Law.enclosures_allows {w w' : World κ σ} (h : w.EnclosuresKept w') :
    Law.enclosures.Allows w w' := fun _ => ⟨trivial, h⟩

theorem Law.enclosures_library : (Law.enclosures : Law (World κ σ)).Library where
  elsewhere _ _ _ h _ := Law.enclosures_allows (.of_eq h)
  record _ _ _ := Law.enclosures_allows (.of_eq rfl)
  newObject _ _ _ := Law.enclosures_allows (.of_eq rfl)
  newEnclosure w stack := Law.enclosures_allows (.newEnclosure w stack)

theorem Law.enclosures_reads (h : Host κ σ) (fuel : Nat) (e : Dispatch κ σ)
    (hd : (h.dispatch fuel).Keeps Law.enclosures.everywhere e) :
    (h.dispatch fuel).KeepsReads Law.enclosures.everywhere e where
  viewGet := by
    refine Dispatch.Keeps.viewGet Law.enclosures_library.rendering
      (fun _ _ => Law.enclosures_allows (.of_eq rfl)) (fun w id key value => ?_) hd
    refine Law.enclosures_allows (.of_eq ?_)
    unfold World.remember
    split <;> rfl
  readBundle := by
    refine Dispatch.Keeps.readBundle (fun w id stack hidle _ => ?_) fun key =>
      hd.lookup Law.enclosures_library.rendering key true
    refine ⟨trivial, fun s _ hlead => ⟨trivial, ?_⟩⟩
    obtain ⟨hkept, haccessor, hreserved⟩ := hlead
    exact .giveBack hidle hkept haccessor hreserved

end LayeredScope
