import LayeredScope.Proofs.Law.Programs
import LayeredScope.Proofs.Preservation

/-!
# What the library does not disturb

The library records events, issues mappings and objects, lets views remember, hands stacks out and
takes them back, and writes into the mappings of its own choices. A condition on the world that
survives each of these steps survives whatever the library does, as long as the code of the host
does not disturb it either.

* `World.Stable` — a condition that the steps of the library preserve.
* `World.Issued`, `World.Binds` — a mapping exists, and has exactly these entries. Both are stable:
  a choice writes only into a mapping that is younger than every mapping there was.
* `Dispatch.Upholds` — the calls preserve a condition. Then so does everything that is built on
  them, since to preserve it is a law that the library keeps (`Laws.upholding`).
* `Host.dispatch_upholds` — if the code of the host preserves a stable condition, then so does every
  call of every value.
-/

namespace LayeredScope

variable {κ σ α : Type}

/-! ## Conditions -/

/-- A condition that holds whatever step the library makes. -/
structure World.Stable (P : World κ σ → Prop) : Prop where
  record : ∀ {w} event, P w → P (w.record event)
  newMap : ∀ {w} entries, P w → P (w.newMap entries).2
  newObject : ∀ {w} o, P w → P (w.newObject o).2
  remember : ∀ {w} id key value, P w → P (w.remember id key value)
  setEnclosure : ∀ {w} id e, P w → P (w.setEnclosure id e)
  /-- A mapping that is issued while the condition holds may be written ever after. -/
  insert : ∀ {w w'} key value, P w → P w' → P (w'.insert (w.newMap ∅).1 key value)

namespace World

variable {m : MapId} {entries : Entries Value} {w w' : World κ σ}

/-- The mapping exists. -/
def Issued (m : MapId) (w : World κ σ) : Prop := m.index < w.maps.size

/-- The mapping exists, and has exactly these entries. -/
def Binds (m : MapId) (entries : Entries Value) (w : World κ σ) : Prop :=
  w.Issued m ∧ w.entries m = entries

theorem Issued.binds (h : w.Issued m) : w.Binds m (w.entries m) := ⟨h, rfl⟩

theorem maps_remember (w : World κ σ) (id : ObjectId) (key : String) (value : Value) :
    (w.remember id key value).maps = w.maps := by
  unfold remember
  split <;> rfl

theorem Issued.insert (h : w.Issued m) (other : MapId) (key : String) (value : Value) :
    (w.insert other key value).Issued m := by
  simpa [Issued, World.insert, setEntries] using h

theorem Issued.newMap (h : w.Issued m) (es : Entries Value) : (w.newMap es).2.Issued m := by
  simpa [Issued, World.newMap] using Nat.lt_succ_of_lt h

theorem Binds.of_maps (h : w.Binds m entries) (hmaps : w'.maps = w.maps) : w'.Binds m entries := by
  unfold Binds Issued World.entries at h ⊢
  rw [hmaps]
  exact h

/-- What a key is bound to shows among the entries. -/
theorem Binds.insert (h : w.Binds m entries) (key : String) (value : Value) :
    (w.insert m key value).Binds m (entries.insert key value) := by
  refine ⟨h.1.insert m key value, ?_⟩
  rw [entries_insert h.1, if_pos rfl, h.2]

theorem Binds.insert_of_ne (h : w.Binds m entries) {other : MapId} (hne : m ≠ other) (key : String)
    (value : Value) : (w.insert other key value).Binds m entries := by
  refine ⟨h.1.insert other key value, ?_⟩
  by_cases hother : other.index < w.maps.size
  · rw [entries_insert hother, if_neg hne, h.2]
  · rw [← h.2]
    simp [World.insert, setEntries, World.entries, Array.setIfInBounds, hother]

/-- That a mapping exists is stable. -/
theorem Stable.issued (m : MapId) : Stable (Issued (κ := κ) (σ := σ) m) where
  record _ h := h
  newMap entries h := h.newMap entries
  newObject _ h := h
  remember id key value h := by
    unfold Issued
    rw [maps_remember]
    exact h
  setEnclosure _ _ h := h
  insert key value _ h := h.insert _ key value

/-- So is what its entries are. -/
theorem Stable.binds (m : MapId) (entries : Entries Value) :
    Stable (Binds (κ := κ) (σ := σ) m entries) where
  record _ h := h
  newMap es h := ⟨h.1.newMap es, (entries_newMap_of_lt h.1 es).trans h.2⟩
  newObject _ h := h
  remember id key value h := h.of_maps (maps_remember _ id key value)
  setEnclosure _ _ h := h
  insert key value h h' := by
    refine h'.insert_of_ne ?_ key value
    rintro rfl
    exact Nat.lt_irrefl _ h.1

end World

/-- The condition holds of the world behind a session. -/
def Session.Meets (P : World κ σ → Prop) (s : Session κ σ) : Prop := P s.world

/-- The same under a guard. -/
def Frame.Meets (P : World κ σ → Prop) (f : Frame κ σ) : Prop := P f.world

/-! ## The law -/

/-- The condition holds, of the world at hand. -/
def Laws.upholding (P : World κ σ → Prop) : Laws κ σ where
  world := .preserving P
  session := .preserving (Session.Meets P)
  frame := .preserving (Frame.Meets P)
  onWorld _ hs := ⟨hs, fun _ hw _ => ⟨hw, trivial⟩⟩
  onSession _ hf := ⟨hf, fun _ hs _ => ⟨hs, trivial⟩⟩
  guarded _ hs := ⟨hs, fun _ hf _ => ⟨hf, trivial⟩⟩
  leads_world _ := trivial
  enter _ _ hf := ⟨hf, trivial⟩
  deepen _ hf := ⟨hf, trivial⟩
  introduce _ _ hf := ⟨hf, trivial⟩

theorem Laws.upholding_onAnyStack (P : World κ σ → Prop) : (Laws.upholding P).OnAnyStack :=
  fun _ _ hw => hw

/-- The mapping of a choice is issued while the condition holds, so it may be written. -/
theorem World.Stable.rendering {P : World κ σ → Prop} (hP : World.Stable P) :
    (Laws.upholding P).world.Rendering where
  record _ event _ hw := ⟨hP.record event hw, trivial⟩
  choice _ hw :=
    ⟨⟨hP.newMap ∅ hw, trivial⟩, fun _ key value hw' => ⟨hP.insert key value hw hw', trivial⟩⟩
  view _ target accessor reserved hw :=
    ⟨hP.newObject (.view { target, accessor, reserved, memory := ∅ }) hw, trivial⟩

/-- The calls preserve the condition. -/
structure Dispatch.Upholds (d : Dispatch κ σ) (P : World κ σ → Prop) : Prop where
  readAttr : ∀ v name, (d.readAttr v name).Preserves P
  readItem : ∀ id key, (d.readItem id key).Preserves P
  call : ∀ v, (d.call v).Preserves P
  apply : ∀ v client, (d.apply v client).Preserves (Session.Meets P)
  hook : ∀ id, (d.hook id).Preserves (Session.Meets P)
  access : ∀ code v name, (d.access code v name).Preserves P
  evaluate : ∀ code, (d.evaluate code).Preserves (Session.Meets P)

namespace Dispatch.Upholds

variable {P : World κ σ → Prop} {d : Dispatch κ σ}

theorem keeps (h : d.Upholds P) : d.Keeps (Laws.upholding P) d where
  readAttr v name := Run.preserves_iff_keeps.mp (h.readAttr v name)
  readItem id key := Run.preserves_iff_keeps.mp (h.readItem id key)
  call v := Run.preserves_iff_keeps.mp (h.call v)
  apply v client := Run.preserves_iff_keeps.mp (h.apply v client)
  hook id := Run.preserves_iff_keeps.mp (h.hook id)
  access code v name := Run.preserves_iff_keeps.mp (h.access code v name)
  evaluate code := Run.preserves_iff_keeps.mp (h.evaluate code)

theorem of_keeps (h : d.Keeps (Laws.upholding P) d) : d.Upholds P where
  readAttr v name := Run.preserves_iff_keeps.mpr (h.readAttr v name)
  readItem id key := Run.preserves_iff_keeps.mpr (h.readItem id key)
  call v := Run.preserves_iff_keeps.mpr (h.call v)
  apply v client := Run.preserves_iff_keeps.mpr (h.apply v client)
  hook id := Run.preserves_iff_keeps.mpr (h.hook id)
  access code v name := Run.preserves_iff_keeps.mpr (h.access code v name)
  evaluate code := Run.preserves_iff_keeps.mpr (h.evaluate code)

section

variable (hP : World.Stable P) (h : d.Upholds P)

include hP h

/-- Views may remember, and stacks may be handed out and taken back. -/
theorem keepsReads : d.KeepsReads (Laws.upholding P) d where
  viewGet := h.keeps.viewGet hP.rendering (fun _ event hw => ⟨hP.record event hw, trivial⟩)
    fun _ id key value hw => ⟨hP.remember id key value hw, trivial⟩
  readBundle := Dispatch.Keeps.readBundle
    (fun _ id _ _ hw => ⟨hP.setEnclosure id .reading hw, fun s hs _ =>
      ⟨hP.setEnclosure id (.idle s.stack) hs, trivial⟩⟩)
    fun key => h.keeps.lookup hP.rendering key true

theorem lookup (key : String) (invoked : Bool) :
    (d.lookup key invoked).Preserves (Session.Meets P) :=
  Run.preserves_iff_keeps.mpr (h.keeps.lookup hP.rendering key invoked)

theorem valueOf (e : Expr κ) : (d.valueOf e).Preserves (Session.Meets P) :=
  Run.preserves_iff_keeps.mpr ((h.keeps.related hP.rendering).valueOf e)

/-- A condition is kept in a mapping that may be written. -/
theorem holds {kept : MapId} (hkept : ∀ w key value, P w → P (w.insert kept key value))
    (condition : Expr κ) : (d.holds kept condition).Preserves (Session.Meets P) :=
  Run.preserves_iff_keeps.mpr ((h.keeps.related hP.rendering).holds
    (fun w key value hw => ⟨hkept w key value hw, trivial⟩) condition)

theorem renderOnto (out : String) (blocks : List (Block κ)) :
    (d.renderOnto out blocks).Preserves (Session.Meets P) :=
  Run.preserves_iff_keeps.mpr ((h.keeps.related hP.rendering).renderOnto out blocks)

end

end Dispatch.Upholds

/-! ## Tying the knot -/

/-- Every piece of code that the host runs preserves the condition. -/
structure Host.Upholds (h : Host κ σ) (P : World κ σ → Prop) : Prop where
  readAttr : ∀ fuel code name, (runAlone (h.dispatch fuel) (h.readAttr code name)).Preserves P
  readItem : ∀ fuel code key, (runAlone (h.dispatch fuel) (h.readItem code key)).Preserves P
  call : ∀ fuel code, (runAlone (h.dispatch fuel) (h.call code)).Preserves P
  apply : ∀ fuel code client,
    (runScript (h.dispatch fuel) (h.apply code client)).Preserves (Session.Meets P)
  hook : ∀ fuel code, (runScript (h.dispatch fuel) (h.hook code)).Preserves (Session.Meets P)
  access : ∀ fuel code target name,
    (runAlone (h.dispatch fuel) (h.access code target name)).Preserves P
  evaluate : ∀ fuel code,
    (runScript (h.dispatch fuel) (h.evaluate code)).Preserves (Session.Meets P)

/-- **Then so does every call of every value**, if the condition is stable: by induction on how deep
calls lead to calls. -/
theorem Host.dispatch_upholds {h : Host κ σ} {P : World κ σ → Prop} (hP : World.Stable P)
    (hh : h.Upholds P) (fuel : Nat) : (h.dispatch fuel).Upholds P := by
  have hcode (fuel : Nat) : h.CodeKeeps (Laws.upholding P) h (h.dispatch fuel) (h.dispatch fuel) :=
    { readAttr := fun code name => Run.preserves_iff_keeps.mp (hh.readAttr fuel code name)
      readItem := fun code key => Run.preserves_iff_keeps.mp (hh.readItem fuel code key)
      call := fun code => Run.preserves_iff_keeps.mp (hh.call fuel code)
      apply := fun code client => Run.preserves_iff_keeps.mp (hh.apply fuel code client)
      hook := fun code => Run.preserves_iff_keeps.mp (hh.hook fuel code)
      access := fun code target name => Run.preserves_iff_keeps.mp (hh.access fuel code target name)
      evaluate := fun code => Run.preserves_iff_keeps.mp (hh.evaluate fuel code) }
  exact .of_keeps (Host.dispatch_keeps_of_code hP.rendering (Laws.upholding_onAnyStack P)
    (fun _ hcalls => Dispatch.Upholds.keepsReads hP (.of_keeps hcalls))
    (fun fuel _ => hcode fuel) fuel)

end LayeredScope
