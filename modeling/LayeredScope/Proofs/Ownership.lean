import LayeredScope.Proofs.Preservation
import LayeredScope.Proofs.Termination

/-!
# Whose layers a guard takes off

A guard remembers a number, not layers. An onlooker who writes down how each layer came onto the
stack can say which ones the guard takes off when it is closed.

* `Arrival`, `Ledger` — how each layer came, the number of those entered, the level before the first
  descent.
* `Under` — what can be done under a guard, step by step, with the ledger.
* `Ledger.Fits` — what the ledger says about the frame; each step keeps it (`Under.fits`).
* `Ledger.left` — the layers that are left when the guard is closed.
* `guarded_takes_off` — **the guard takes off the newest layers, as many as were entered**; when
  those are its own.
* `popped_entered` — a body that pops what was entered costs the stack a layer from before.
-/

namespace LayeredScope

variable {κ σ α : Type}

/-- How a layer came onto the stack of a guard. -/
inductive Arrival where
  /-- It was there before the guard. -/
  | earlier
  /-- It was entered through the guard. -/
  | entered
  /-- The body pushed it. -/
  | pushed
  deriving DecidableEq, Repr

/-- What an onlooker writes down about a guard. -/
structure Ledger where
  /-- The layers on the stack, the newest first, each with how it came. -/
  layers : List (Arrival × Layer)
  /-- How many layers were entered through the guard. -/
  entered : Nat := 0
  /-- The level just before the first descent. -/
  levelBefore : Option Int64 := none

/-- What can be done under a guard that is made in the session `s`. -/
inductive Under (s : Session κ σ) : Frame κ σ → Ledger → Prop
  | start : Under s ⟨s, {}⟩ { layers := s.stack.layers.map (.earlier, ·) }
  | enter {f : Frame κ σ} {l : Ledger} (before : Under s f l) (layer : Layer) :
    Under s (f.enter layer)
      { l with layers := (.entered, layer) :: l.layers, entered := l.entered + 1 }
  | deepen {f : Frame κ σ} {l : Ledger} (before : Under s f l) :
    Under s f.deepen { l with levelBefore := l.levelBefore <|> some f.stack.level }
  | push {f : Frame κ σ} {l : Ledger} (before : Under s f l) (layer : Layer) :
    Under s { f with stack := f.stack.push layer }
      { l with layers := (.pushed, layer) :: l.layers }
  | pop {f : Frame κ σ} {l : Ledger} (before : Under s f l) (count : Nat)
      (enough : count ≤ f.stack.depth) :
    Under s { f with stack := { f.stack with layers := f.stack.layers.drop count } }
      { l with layers := l.layers.drop count }
  /-- Anything but the layers and the guard can change: the level, the fields, the world. -/
  | aside {f g : Frame κ σ} {l : Ledger} (before : Under s f l)
      (layers : g.stack.layers = f.stack.layers) (guard : g.guard = f.guard) : Under s g l

namespace Ledger

/-- The layers that came in one way. -/
def came (a : Arrival) (layers : List (Arrival × Layer)) : List Layer :=
  (layers.filter (·.1 = a)).map (·.2)

/-- The number of layers that came after the guard. -/
def above (l : Ledger) : Nat := (l.layers.filter (·.1 ≠ .earlier)).length

/-- The layers that are left when the guard is closed. -/
def left (l : Ledger) : List (Arrival × Layer) :=
  if l.entered ≤ l.layers.length then l.layers.drop l.entered else l.layers

/-- No layer of the guard's own is left, and every one from before that was not popped is. -/
def Settled (l : Ledger) : Prop :=
  came .entered l.left = [] ∧ came .earlier l.left = came .earlier l.layers

/-! ## The layers that came in one way -/

theorem came_append (a : Arrival) (xs ys : List (Arrival × Layer)) :
    came a (xs ++ ys) = came a xs ++ came a ys := by
  simp [came]

theorem came_earlier_map (kept : List Layer) :
    came .earlier (kept.map (Arrival.earlier, ·)) = kept := by
  simp [came, List.filter_map, Function.comp_def]

theorem came_eq_nil_iff {a : Arrival} {xs : List (Arrival × Layer)} :
    came a xs = [] ↔ ∀ e ∈ xs, e.1 ≠ a := by
  simp [came]

theorem length_came_drop_le (a : Arrival) (xs : List (Arrival × Layer)) (count : Nat) :
    (came a (xs.drop count)).length ≤ (came a xs).length := by
  simp only [came, List.length_map]
  exact ((List.drop_sublist count xs).filter _).length_le

/-- What was entered and is still there came after the guard. -/
theorem length_came_entered_le (l : Ledger) : (came .entered l.layers).length ≤ l.above := by
  rw [came, List.length_map, above, ← List.countP_eq_length_filter,
    ← List.countP_eq_length_filter]
  refine List.countP_mono_left fun e _ he => ?_
  rw [decide_eq_true_eq] at he
  simp [he]

/-! ## What a ledger says -/

/-- The ledger tells the layers and the guard; the layers from before the guard are below the others
and are the oldest of those that were there. -/
structure Fits (s : Session κ σ) (f : Frame κ σ) (l : Ledger) : Prop where
  layers : f.stack.layers = l.layers.map (·.2)
  guard : f.guard = ⟨l.entered, l.levelBefore⟩
  below : ∃ newer kept, l.layers = newer ++ kept.map (Arrival.earlier, ·) ∧
    (∀ e ∈ newer, e.1 ≠ .earlier) ∧ kept <:+ s.stack.layers
  entered : (came .entered l.layers).length ≤ l.entered

variable {s : Session κ σ} {f f' : Frame κ σ} {l : Ledger}

theorem Fits.start (s : Session κ σ) :
    Fits s ⟨s, {}⟩ { layers := s.stack.layers.map (.earlier, ·) } := by
  refine ⟨?_, rfl, ⟨[], s.stack.layers, rfl, nofun, List.suffix_refl _⟩, ?_⟩
  · simp [Function.comp_def]
  · simp [came, List.filter_map, Function.comp_def]

/-- A new layer, on top of the others. -/
theorem Fits.cons (h : Fits s f l) {a : Arrival} (ha : a ≠ .earlier) (layer : Layer)
    (hlayers : f'.stack.layers = layer :: f.stack.layers) {entered : Nat}
    (hguard : f'.guard = ⟨entered, l.levelBefore⟩)
    (hentered : (came .entered ((a, layer) :: l.layers)).length ≤ entered) :
    Fits s f' { l with layers := (a, layer) :: l.layers, entered } := by
  obtain ⟨newer, kept, hsplit, hnewer, hkept⟩ := h.below
  refine ⟨?_, hguard, ⟨(a, layer) :: newer, kept, ?_, ?_, hkept⟩, hentered⟩
  · rw [hlayers, h.layers]
    rfl
  · rw [hsplit]
    rfl
  · exact List.forall_mem_cons.mpr ⟨ha, hnewer⟩

theorem Fits.enter (h : Fits s f l) (layer : Layer) :
    Fits s (f.enter layer)
      { l with layers := (.entered, layer) :: l.layers, entered := l.entered + 1 } := by
  refine h.cons (a := .entered) (by decide) layer rfl ?_ (Nat.succ_le_succ h.entered)
  show Guard.mk (f.guard.entered + 1) f.guard.returnLevel = _
  rw [h.guard]

theorem Fits.deepen (h : Fits s f l) :
    Fits s f.deepen { l with levelBefore := l.levelBefore <|> some f.stack.level } := by
  refine ⟨h.layers, ?_, h.below, h.entered⟩
  show Guard.mk f.guard.entered (some (f.guard.returnLevel.getD f.stack.level)) = _
  rw [h.guard]
  cases l.levelBefore <;> rfl

theorem Fits.push (h : Fits s f l) (layer : Layer) :
    Fits s { f with stack := f.stack.push layer }
      { l with layers := (.pushed, layer) :: l.layers } :=
  h.cons (a := .pushed) (by decide) layer rfl h.guard h.entered

theorem Fits.pop (h : Fits s f l) (count : Nat) :
    Fits s { f with stack := { f.stack with layers := f.stack.layers.drop count } }
      { l with layers := l.layers.drop count } := by
  obtain ⟨newer, kept, hsplit, hnewer, hkept⟩ := h.below
  refine ⟨?_, h.guard, ⟨newer.drop count, kept.drop (count - newer.length), ?_, ?_, ?_⟩, ?_⟩
  · show f.stack.layers.drop count = _
    rw [h.layers, List.map_drop]
  · show l.layers.drop count = _
    rw [hsplit, List.drop_append, List.map_drop]
  · exact fun e he => hnewer e (List.mem_of_mem_drop he)
  · exact (List.drop_suffix _ kept).trans hkept
  · exact Nat.le_trans (length_came_drop_le .entered l.layers count) h.entered

theorem Fits.aside (h : Fits s f l) (hlayers : f'.stack.layers = f.stack.layers)
    (hguard : f'.guard = f.guard) : Fits s f' l :=
  ⟨hlayers.trans h.layers, hguard.trans h.guard, h.below, h.entered⟩

end Ledger

/-- Whatever is done under a guard, the ledger fits. -/
theorem Under.fits {s : Session κ σ} {f : Frame κ σ} {l : Ledger} (h : Under s f l) :
    l.Fits s f := by
  induction h with
  | start => exact .start s
  | enter before layer ih => exact ih.enter layer
  | deepen before ih => exact ih.deepen
  | push before layer ih => exact ih.push layer
  | pop before count enough ih => exact ih.pop count
  | aside before layers guard ih => exact ih.aside layers guard

/-! ## What is left -/

namespace Ledger

variable {s : Session κ σ} {f : Frame κ σ} {l : Ledger}

/-- Closing the guard leaves what the ledger says. -/
theorem Fits.close (h : Fits s f l) :
    f.guard.close f.stack =
      { f.stack with
        layers := l.left.map (·.2)
        level := l.levelBefore.getD f.stack.level } := by
  simp only [Guard.close, dropExactly?_eq, h.guard, h.layers, List.length_map, left]
  split
  · rw [Option.getD_some, List.map_drop]
  · rfl

/-- The parts of a ledger: what came after the guard, and what is kept from before. -/
theorem Fits.split (h : Fits s f l) :
    ∃ newer, l.layers = newer ++ (came .earlier l.layers).map (Arrival.earlier, ·) ∧
      l.above = newer.length ∧ came .earlier newer = [] ∧
      came .earlier l.layers <:+ s.stack.layers := by
  obtain ⟨newer, kept, hsplit, hnewer, hkept⟩ := h.below
  have hnone : came .earlier newer = [] := came_eq_nil_iff.mpr hnewer
  have hall : newer.filter (·.1 ≠ .earlier) = newer :=
    List.filter_eq_self.mpr fun e he => by simpa using hnewer e he
  have hearlier : came .earlier l.layers = kept := by
    rw [hsplit, came_append, hnone, came_earlier_map, List.nil_append]
  refine ⟨newer, by rw [hearlier, hsplit], ?_, hnone, hearlier ▸ hkept⟩
  rw [above, hsplit, List.filter_append, hall]
  simp [List.filter_map, Function.comp_def]

/-- The layers from before the guard are all left exactly if nothing is taken off, or no more than
came after the guard. -/
theorem Fits.left_earlier (h : Fits s f l) :
    came .earlier l.left = came .earlier l.layers ↔
      l.layers.length < l.entered ∨ l.entered ≤ l.above := by
  obtain ⟨newer, hsplit, habove, hnewer, -⟩ := h.split
  generalize hkept : came .earlier l.layers = kept at hsplit
  have hlength : l.layers.length = newer.length + kept.length := by
    rw [hsplit, List.length_append, List.length_map]
  unfold left
  split
  · rename_i hle
    have hgone : came .earlier (newer.drop l.entered) = [] :=
      came_eq_nil_iff.mpr fun e he =>
        came_eq_nil_iff.mp hnewer e (List.mem_of_mem_drop he)
    have hleft : came .earlier (l.layers.drop l.entered) =
        kept.drop (l.entered - newer.length) := by
      rw [hsplit, List.drop_append, came_append, hgone, ← List.map_drop, came_earlier_map,
        List.nil_append]
    rw [hleft, habove]
    constructor
    · intro heq
      have hdrop := congrArg List.length heq
      rw [List.length_drop] at hdrop
      omega
    · intro hor
      rw [Nat.sub_eq_zero_of_le (by omega), List.drop_zero]
  · rename_i hlt
    simp only [hkept, true_iff]
    omega

/-- When the guard takes off its own layers and nothing from before it. -/
theorem Fits.settled_iff (h : Fits s f l) :
    l.Settled ↔
      l.entered ≤ l.above ∧ came .entered (l.layers.drop l.entered) = [] ∨
        l.layers.length < l.entered ∧ came .entered l.layers = [] := by
  have hle : l.above ≤ l.layers.length := List.length_filter_le _ _
  rw [Settled, h.left_earlier, left]
  split
  · rename_i henough
    constructor
    · rintro ⟨hown, hfew | habove⟩
      · omega
      · exact .inl ⟨habove, hown⟩
    · rintro (⟨habove, hown⟩ | ⟨hfew, -⟩)
      · exact ⟨hown, .inr habove⟩
      · omega
  · rename_i hfew
    constructor
    · rintro ⟨hown, -⟩
      exact .inr ⟨Nat.not_le.mp hfew, hown⟩
    · rintro (⟨habove, -⟩ | ⟨-, hown⟩)
      · omega
      · exact ⟨hown, .inl (Nat.not_le.mp hfew)⟩

/-- If nothing that was entered has been popped, the layers from before the guard are left. -/
theorem Fits.left_earlier_of_entered (h : Fits s f l)
    (hall : (came .entered l.layers).length = l.entered) :
    came .earlier l.left = came .earlier l.layers :=
  h.left_earlier.mpr (.inr (hall ▸ l.length_came_entered_le))

/-- If moreover nothing else has been pushed, they are all that is left. -/
theorem Fits.left_eq (h : Fits s f l) (hall : (came .entered l.layers).length = l.entered)
    (hpushed : came .pushed l.layers = []) : l.left.map (·.2) = came .earlier l.layers := by
  obtain ⟨newer, hsplit, habove, hnewer, -⟩ := h.split
  have hnewest : ∀ e ∈ newer, e.1 = .entered := by
    intro e he
    have hearlier : e.1 ≠ .earlier := came_eq_nil_iff.mp hnewer e he
    have hother : e.1 ≠ .pushed :=
      came_eq_nil_iff.mp hpushed e (hsplit ▸ List.mem_append_left _ he)
    cases harrival : e.1 with
    | earlier => exact absurd harrival hearlier
    | entered => rfl
    | pushed => exact absurd harrival hother
  have hentered : l.entered = newer.length := by
    have hfilter : newer.filter (·.1 = .entered) = newer :=
      List.filter_eq_self.mpr fun e he => by simpa using hnewest e he
    have hcame : newer.length ≤ (came .entered l.layers).length := by
      rw [hsplit, came_append, List.length_append, came, hfilter, List.length_map]
      omega
    have habove := l.length_came_entered_le
    omega
  have hle : l.entered ≤ l.layers.length := by
    rw [hsplit, List.length_append]
    omega
  have hdrop : l.layers.drop l.entered = (came .earlier l.layers).map (Arrival.earlier, ·) := by
    rw [hentered, hsplit, List.drop_left, ← hsplit]
  rw [left, if_pos hle, hdrop]
  simp [Function.comp_def]

end Ledger

/-! ## Everything has a ledger -/

namespace Under

variable {s : Session κ σ} {f f' : Frame κ σ} {l : Ledger}

/-- Pushing layers one after the other. -/
theorem pushAll (h : Under s f l) (layers : List Layer) :
    ∃ l', Under s { f with stack := f.stack.pushAll layers } l' := by
  induction layers generalizing f l with
  | nil => exact ⟨l, h⟩
  | cons layer rest ih => exact ih (h.push layer)

/-- Whatever leaves the guard alone is booked, as pops and pushes if it changes the layers. -/
theorem session (h : Under s f l) (hguard : f'.guard = f.guard) : ∃ l', Under s f' l' := by
  by_cases hsame : f'.stack.layers = f.stack.layers
  · exact ⟨l, h.aside hsame hguard⟩
  · obtain ⟨l', hpushed⟩ :=
      (h.pop f.stack.depth (Nat.le_refl _)).pushAll f'.stack.layers.reverse
    refine ⟨l', hpushed.aside ?_ hguard⟩
    simp [Stack.depth]

end Under

/-- An operation on the stack of a frame leaves the guard alone. -/
theorem updateStack_guard (f : Stack κ → Except Failure (α × Stack κ)) (g : Guard) :
    (updateStack f : Run (Frame κ σ) α).Preserves (fun frame => frame.guard = g) := by
  refine .update fun a v b ha hb => ?_
  cases hf : f a.stack with
  | error e => rw [hf] at hb; cases hb
  | ok p => rw [hf] at hb; cases hb; exact ha

/-- Only entering and descending are up to the guard. -/
theorem Op.run_guard (d : Dispatch κ σ) (op : Op κ) :
    (∃ layer, op = .enter layer) ∨ op = .deepen ∨
      ∀ g, (op.run d).Preserves (fun f => f.guard = g) := by
  cases op with
  | enter layer => exact .inl ⟨layer, rfl⟩
  | deepen => exact .inr (.inl rfl)
  | push _ | pop _ | popTop | setLevel _ | clearField _ =>
    refine .inr (.inr fun g => ?_)
    unfold Op.run
    exact updateStack_guard _ g
  | writeField name value =>
    refine .inr (.inr fun g => .update fun f v f' hf hb => ?_)
    cases hw : f.world.writeField f.stack name value with
    | error e => rw [hw] at hb; cases hb
    | ok st => rw [hw] at hb; cases hb; exact hf
  | newMap _ | insert _ _ _ | erase _ _ | newHost _ | newFunction _ | newTemplate _ | newView _ =>
    refine .inr (.inr fun g => ?_)
    unfold Op.run updateWorld
    exact .onSession_guard (Q := (· = g)) _
  | readAttr _ _ | guardedRead _ _ _ | viewGet _ _ | askLayer _ _ | call _ | apply _ _ | fetch _
  | lookup _ _ | contains _ | onAccess _ | readOr _ _ _ | canRead _ _ | viewOf _ | bundle _ _
  | within _ _ | spawned _ | built _ _ | renderAll _ | renderNested _ _ _ | render _ _ _ _ =>
    refine .inr (.inr fun g => ?_)
    unfold Op.run
    exact .onSession_guard (Q := (· = g)) _

/-- Every operation under a guard has its place in the ledger. -/
theorem Op.run_under {d : Dispatch κ σ} {op : Op κ} {s : Session κ σ} {f f' : Frame κ σ}
    {l : Ledger} {r : Except Failure op.Reply} (h : Under s f l)
    (hrun : op.run d f = some (r, f')) : ∃ l', Under s f' l' := by
  match op, r, hrun with
  | .push layer, r, hrun =>
    cases hrun
    exact ⟨_, h.push layer⟩
  | .pop count, r, hrun =>
    unfold Op.run updateStack Run.update at hrun
    by_cases hle : count ≤ f.stack.depth
    · simp only [Stack.pop_of_le hle] at hrun
      cases hrun
      exact ⟨_, h.pop count hle⟩
    · simp only [Stack.pop_of_lt (Nat.not_le.mp hle)] at hrun
      cases hrun
      exact ⟨l, h⟩
  | .popTop, r, hrun =>
    unfold Op.run updateStack Run.update Stack.popTop at hrun
    cases hlayers : f.stack.layers with
    | nil =>
      simp only [hlayers] at hrun
      cases hrun
      exact ⟨l, h⟩
    | cons layer rest =>
      simp only [hlayers] at hrun
      cases hrun
      have hpop := h.pop 1 (by rw [Stack.depth, hlayers]; exact Nat.le_add_left 1 rest.length)
      rw [hlayers] at hpop
      exact ⟨_, hpop⟩
  | op, r, hrun =>
    rcases op.run_guard d with ⟨layer, rfl⟩ | rfl | hguard
    · cases hrun
      exact ⟨_, h.enter layer⟩
    · cases hrun
      exact ⟨_, h.deepen⟩
    · exact h.session (hguard f.guard f r f' rfl hrun)

/-- A whole script is booked operation by operation. -/
theorem Script.run_under {d : Dispatch κ σ} {x : Script κ σ α} {s : Session κ σ}
    {f f' : Frame κ σ} {l : Ledger} {r : Except Failure α} (h : Under s f l)
    (hrun : x.run d f = some (r, f')) : ∃ l', Under s f' l' := by
  induction x generalizing f l with
  | answer v =>
    cases hrun
    exact ⟨l, h⟩
  | fail e =>
    cases hrun
    exact ⟨l, h⟩
  | look next ih => exact ih f h hrun
  | keep state next ih =>
    exact ih (h.aside (g := { f with world := { f.world with host := state } }) rfl rfl) hrun
  | ask op next ih =>
    simp only [Script.run] at hrun
    split at hrun
    · cases hrun
    · rename_i reply f₁ hop
      obtain ⟨l', hl'⟩ := op.run_under h hop
      exact ih reply hl' hrun

/-- So are layers that are entered one after the other, and what is run with them. -/
theorem enterAll_under (layers : List Layer) {x : Run (Session κ σ) α} {s : Session κ σ}
    {f f' : Frame κ σ} {l : Ledger} {r : Except Failure α} (h : Under s f l)
    (hrun : (enterAll layers >>= fun _ => x.onSession) f = some (r, f')) :
    ∃ l', Under s f' l' := by
  induction layers generalizing f l with
  | nil =>
    have hguard := Run.Preserves.onSession_guard (Q := (· = f.guard)) x f r f' rfl hrun
    exact h.session hguard
  | cons layer rest ih => exact ih (h.enter layer) hrun

/-! ## Main theorem -/

/-- **A guard takes off the newest layers, as many as were entered through it, or none if there are
not as many**, whatever is done under it and whatever the outcome; and the level is what it was just
before the first descent. Its own layers are gone, and all from before it that were not popped are
left, exactly if no more were entered than came after the guard and those that were entered are
among as many of the newest (or none of them is there and the others are too few). If the body pops
none that were entered, nothing from before the guard is lost; if it leaves none of its own either,
what is left are the layers from before. Whatever a script, or a run with layers, does under its
guard has a ledger. -/
theorem guarded_takes_off (s : Session κ σ) :
    (∀ (d : Dispatch κ σ) (x : Script κ σ α) r f,
      x.run d ⟨s, {}⟩ = some (r, f) → ∃ l, Under s f l) ∧
    (∀ layers (x : Run (Session κ σ) α) r f,
      (enterAll layers >>= fun _ => x.onSession) ⟨s, {}⟩ = some (r, f) → ∃ l, Under s f l) ∧
    ∀ (x : Run (Frame κ σ) α) r f l, x ⟨s, {}⟩ = some (r, f) → Under s f l →
      guarded x s = some (r, ⟨f.world, { f.stack with
        layers := l.left.map (·.2)
        level := l.levelBefore.getD f.stack.level }⟩) ∧
      f.stack.layers = l.layers.map (·.2) ∧
      Ledger.came .earlier l.layers <:+ s.stack.layers ∧
      (l.Settled ↔
        l.entered ≤ l.above ∧ Ledger.came .entered (l.layers.drop l.entered) = [] ∨
          l.layers.length < l.entered ∧ Ledger.came .entered l.layers = []) ∧
      ((Ledger.came .entered l.layers).length = l.entered →
        Ledger.came .earlier l.left = Ledger.came .earlier l.layers ∧
        (Ledger.came .pushed l.layers = [] →
          l.left.map (·.2) = Ledger.came .earlier l.layers)) := by
  refine ⟨fun d x r f hrun => Script.run_under .start hrun,
    fun layers x r f hrun => enterAll_under layers .start hrun, fun x r f l hrun h => ?_⟩
  have hfits := h.fits
  have hclosed : guarded x s = some (r, ⟨f.world, f.guard.close f.stack⟩) := by
    rw [guarded_apply, hrun]
  obtain ⟨_, _, _, _, hkept⟩ := hfits.split
  exact ⟨hclosed.trans (by rw [hfits.close]), hfits.layers, hkept, hfits.settled_iff,
    fun hall => ⟨hfits.left_earlier_of_entered hall, fun hpushed => hfits.left_eq hall hpushed⟩⟩

/-- A stack with one layer. -/
def lonelySession : Session Unit Unit where
  world := { maps := #[∅, ∅], host := () }
  stack := { layers := [.mapping ⟨0⟩] }

/-- A layer is entered, then another is pushed and popped, and the level is changed twice. -/
def tidyBody : Script Unit Unit Unit := do
  Script.request (.enter (.mapping ⟨1⟩))
  Script.request .deepen
  Script.request (.push (.sealed .none))
  Script.request (.setLevel 9)
  discard (Script.request (.pop 1))

/-- The layer that was there is left, at the level from before. -/
theorem tidyBody_takes_off :
    ∃ f l, tidyBody.run (silentHost.dispatch 0) ⟨lonelySession, {}⟩ = some (.ok (), f) ∧
      Under lonelySession f l ∧ (Ledger.came .entered l.layers).length = l.entered ∧
      Ledger.came .pushed l.layers = [] ∧ l.Settled ∧
      guarded (tidyBody.run (silentHost.dispatch 0)) lonelySession =
        some (.ok (), lonelySession) := by
  let f : Frame Unit Unit :=
    ⟨⟨lonelySession.world, { layers := [.mapping ⟨1⟩, .mapping ⟨0⟩], level := 9 }⟩, ⟨1, some 0⟩⟩
  have hunder := ((((Under.start (s := lonelySession)).enter (.mapping ⟨1⟩)).deepen.push
    (.sealed .none)).pop 1 (by decide)).aside (g := f) rfl rfl
  have hrun : tidyBody.run (silentHost.dispatch 0) ⟨lonelySession, {}⟩ = some (.ok (), f) := by
    cbv
  obtain ⟨hclosed, -, -, hsettled, -⟩ :=
    (guarded_takes_off lonelySession).2.2 _ _ _ _ hrun hunder
  exact ⟨_, _, hrun, hunder, rfl, rfl, hsettled.mpr (.inl ⟨by decide, rfl⟩), hclosed⟩

/-- A layer is entered and popped. -/
def untidyBody : Script Unit Unit Unit := do
  Script.request (.enter (.mapping ⟨1⟩))
  discard (Script.request (.pop 1))

/-- The layer from before the guard was not popped by the body, and is gone. -/
theorem popped_entered :
    ∃ f l, untidyBody.run (silentHost.dispatch 0) ⟨lonelySession, {}⟩ = some (.ok (), f) ∧
      Under lonelySession f l ∧ Ledger.came .earlier l.layers = lonelySession.stack.layers ∧
      guarded (untidyBody.run (silentHost.dispatch 0)) lonelySession =
        some (.ok (), { lonelySession with stack := {} }) ∧ ¬ l.Settled := by
  have hunder := ((Under.start (s := lonelySession)).enter (.mapping ⟨1⟩)).pop 1 (by decide)
  have hrun : untidyBody.run (silentHost.dispatch 0) ⟨lonelySession, {}⟩ =
    some (.ok (), ⟨{ lonelySession with stack := { layers := [.mapping ⟨0⟩] } }, ⟨1, none⟩⟩) := by
      cbv
  refine ⟨_, _, hrun, hunder, rfl, ?_, ?_⟩
  · rw [guarded_apply, hrun]
    rfl
  · rintro ⟨-, hkept⟩
    cases hkept

end LayeredScope
