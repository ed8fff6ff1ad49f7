import LayeredScope.Proofs.Law.Programs

/-!
# More fuel changes no finished run

Every definition over a `Dispatch` asks it and goes on with the answers, so if one record
finishes whatever another finishes, so does everything that is built on it. That is to keep a law
that asks for nothing.

* `Run.le_iff_keeps`, `Dispatch.le_iff_keeps` — to finish whatever another finishes is to keep the
  free law.
* `Laws.free_library` — the library keeps it, and so do the reads of views and bundles.
* `Host.dispatch_le` — **more fuel finishes whatever less fuel finishes, in the same way**.
-/

namespace LayeredScope

variable {κ σ s α β : Type}

/-! ## The free law -/

theorem Run.le_iff_keeps {x y : Run s α} : x.Le y ↔ x.Keeps .free y :=
  ⟨fun h a r b _ hx => ⟨h a (r, b) hx, trivial, trivial⟩,
    fun h a p hx => (h a p.1 p.2 trivial hx).1⟩

theorem Laws.free_rendering : (Laws.free : Laws κ σ).world.Rendering := Law.free_library.rendering

theorem Laws.free_library : (Laws.free : Laws κ σ).Library where
  world := Law.free_library
  stack f _ _ _ := Law.free_allows f _
  spawn _ _ _ _ := trivial

theorem Laws.free_onAnyStack : (Laws.free : Laws κ σ).OnAnyStack := fun _ _ _ => trivial

variable {d e : Dispatch κ σ}

theorem Dispatch.le_iff_keeps : d.Le e ↔ d.Keeps .free e := by
  constructor
  · intro h
    exact
      { readAttr := fun v name => Run.le_iff_keeps.mp (h.readAttr v name)
        readItem := fun id key => Run.le_iff_keeps.mp (h.readItem id key)
        call := fun v => Run.le_iff_keeps.mp (h.call v)
        apply := fun v client => Run.le_iff_keeps.mp (h.apply v client)
        hook := fun id => Run.le_iff_keeps.mp (h.hook id)
        access := fun c v name => Run.le_iff_keeps.mp (h.access c v name)
        evaluate := fun c => Run.le_iff_keeps.mp (h.evaluate c) }
  · intro h
    exact
      { readAttr := fun v name => Run.le_iff_keeps.mpr (h.readAttr v name)
        readItem := fun id key => Run.le_iff_keeps.mpr (h.readItem id key)
        call := fun v => Run.le_iff_keeps.mpr (h.call v)
        apply := fun v client => Run.le_iff_keeps.mpr (h.apply v client)
        hook := fun id => Run.le_iff_keeps.mpr (h.hook id)
        access := fun c v name => Run.le_iff_keeps.mpr (h.access c v name)
        evaluate := fun c => Run.le_iff_keeps.mpr (h.evaluate c) }

theorem Dispatch.Keeps.free_reads (h : d.Keeps .free e) : d.KeepsReads .free e where
  viewGet := h.viewGet Laws.free_rendering (fun w _ => Law.free_allows w _)
    fun w _ _ _ => Law.free_allows w _
  readBundle := Dispatch.Keeps.readBundle
    (fun _ _ _ _ _ => ⟨trivial, fun _ _ _ => ⟨trivial, trivial⟩⟩)
    fun key => h.lookup Laws.free_rendering key true

/-! ## Everything that is built on calls -/

theorem Run.unfinished_le (x : Run s α) : (Run.unfinished : Run s α).Le x :=
  fun _ _ h => nomatch h

theorem Run.Le.onWorld {x y : Run (World κ σ) α} (h : x.Le y) : x.onWorld.Le y.onWorld :=
  le_iff_keeps.mpr (Run.Keeps.onWorld (L := .free) (le_iff_keeps.mp h))

namespace Dispatch.Le

variable (h : d.Le e)

include h

theorem fetch (s : Stack κ) (key : String) : (d.fetch s key).Le (e.fetch s key) :=
  Run.le_iff_keeps.mpr ((le_iff_keeps.mp h).fetch Laws.free_rendering s key)

theorem related : d.Related (Laws.relation Laws.free_rendering) e :=
  (le_iff_keeps.mp h).related Laws.free_rendering

theorem lookup (key : String) (invoked : Bool) : (d.lookup key invoked).Le (e.lookup key invoked) :=
  Run.le_iff_keeps.mpr (h.related.lookup key invoked)

theorem holds (kept : MapId) (condition : Expr κ) :
    (d.holds kept condition).Le (e.holds kept condition) :=
  Run.le_iff_keeps.mpr (h.related.holds (fun w _ _ => Law.free_allows w _) condition)

theorem renderBlock (out : String) (block : Block κ) :
    (d.renderBlock out block).Le (e.renderBlock out block) :=
  Run.le_iff_keeps.mpr (h.related.renderBlock out block)

theorem renderAll (blocks : List (Block κ)) : (d.renderAll blocks).Le (e.renderAll blocks) :=
  Run.le_iff_keeps.mpr (h.related.renderAll blocks)

theorem renderNested (t : Template κ) (client : Option Value) (keywords : Option MapId) :
    (d.renderNested t client keywords).Le (e.renderNested t client keywords) :=
  Run.le_iff_keeps.mpr (h.related.renderNested t client keywords)

theorem render (t : Template κ) (client : Option Value) (mapping : Option Layer)
    (keywords : Option MapId) :
    (d.render t client mapping keywords).Le (e.render t client mapping keywords) :=
  Run.le_iff_keeps.mpr ((le_iff_keeps.mp h).render Laws.free_rendering t client mapping keywords
    fun _ _ => trivial)

end Dispatch.Le

/-! ## Tying the knot -/

theorem Dispatch.Le.refl (d : Dispatch κ σ) : d.Le d :=
  ⟨fun _ _ => .refl _, fun _ _ => .refl _, fun _ => .refl _, fun _ _ => .refl _, fun _ => .refl _,
    fun _ _ _ => .refl _, fun _ => .refl _⟩

theorem Dispatch.Le.trans {d e f : Dispatch κ σ} (h : d.Le e) (h' : e.Le f) : d.Le f where
  readAttr v name a p hp := h'.readAttr v name a p (h.readAttr v name a p hp)
  readItem id key a p hp := h'.readItem id key a p (h.readItem id key a p hp)
  call v a p hp := h'.call v a p (h.call v a p hp)
  apply v client a p hp := h'.apply v client a p (h.apply v client a p hp)
  hook id a p hp := h'.hook id a p (h.hook id a p hp)
  access c v name a p hp := h'.access c v name a p (h.access c v name a p hp)
  evaluate c a p hp := h'.evaluate c a p (h.evaluate c a p hp)

theorem Host.dispatch_le_succ (host : Host κ σ) (fuel : Nat) :
    (host.dispatch fuel).Le (host.dispatch (fuel + 1)) := by
  rw [Dispatch.le_iff_keeps]
  induction fuel with
  | zero => exact host.dispatch_zero_keeps _ _
  | succ fuel ih =>
    have hcode := host.codeKeeps Laws.free_library Laws.free_onAnyStack ih ih.free_reads.viewGet
    exact Host.answers_keeps hcode Laws.free_rendering Laws.free_onAnyStack ih ih.free_reads

/-- **More fuel finishes whatever less fuel finishes, in the same way.** -/
theorem Host.dispatch_le (host : Host κ σ) {m n : Nat} (h : m ≤ n) :
    (host.dispatch m).Le (host.dispatch n) := by
  induction h with
  | refl => exact .refl _
  | step _ ih => exact ih.trans (host.dispatch_le_succ _)

end LayeredScope
