import LayeredScope.Proofs.Fields

/-!
# Taking layers off

Layers come off a stack as one block, in the order in which they were pushed, or one by one, the
newest first.

* `Stack.pop_eq_ok_iff` — **what comes off is what pushing would put back**, and nothing else.
* `Stack.pop_add_eq_ok_iff` — two blocks one after the other are one block.
* `popEach`, `pushEach` — layers taken off, and pushed, one by one.
* `Dispatch.popping_composes` — how blocks, single layers and pushing fit together, and that a
  block that is too large changes nothing.
-/

namespace LayeredScope

variable {κ σ : Type}

namespace Stack

variable {s s' : Stack κ} {block : List Layer} {count : Nat}

/-! ## Pushing a block -/

theorem pushAll_append (s : Stack κ) (older newer : List Layer) :
    s.pushAll (older ++ newer) = (s.pushAll older).pushAll newer :=
  List.foldl_append

@[simp] theorem depth_pushAll (s : Stack κ) (block : List Layer) :
    (s.pushAll block).depth = s.depth + block.length := by
  simp [depth, Nat.add_comm]

/-! ## Taking a block off -/

/-- **A block comes off exactly if it has the size that was asked for, and pushing it onto what is
left makes the stack.** -/
theorem pop_eq_ok_iff :
    s.pop count = .ok (block, s') ↔ block.length = count ∧ s'.pushAll block = s := by
  constructor
  · intro h
    by_cases hle : count ≤ s.depth
    · rw [pop_of_le hle] at h
      cases h
      have hlength : (s.layers.take count).length = count := by
        rw [List.length_take]
        exact Nat.min_eq_left hle
      exact ⟨by rw [List.length_reverse, hlength], by simp [pushAll_eq]⟩
    · rw [pop_of_lt (by omega)] at h
      cases h
  · rintro ⟨rfl, rfl⟩
    have hle : block.length ≤ (s'.pushAll block).depth := by
      simp
    have hlength : block.length = block.reverse.length := by simp
    rw [pop_of_le hle, layers_pushAll, hlength, List.take_left, List.drop_left,
      List.reverse_reverse, pushAll_eq]

/-- As many layers as there are can come off. -/
theorem exists_pushAll_of_le (h : count ≤ s.depth) :
    ∃ (block : List Layer) (s' : Stack κ), block.length = count ∧ s'.pushAll block = s :=
  ⟨_, _, pop_eq_ok_iff.mp (pop_of_le h)⟩

/-- **Two blocks, one after the other, are one block**, the second of them being the older part. -/
theorem pop_add_eq_ok_iff {a b : Nat} :
    s.pop (a + b) = .ok (block, s') ↔
      ∃ newer older s₁, s.pop b = .ok (newer, s₁) ∧ s₁.pop a = .ok (older, s') ∧
        block = older ++ newer := by
  simp only [pop_eq_ok_iff]
  constructor
  · rintro ⟨hlength, rfl⟩
    -- The block is answered oldest first, so the `b` layers that come off first stand at its end.
    have htake : (block.take a).length = a := by
      rw [List.length_take]
      omega
    have hdrop : (block.drop a).length = b := by
      rw [List.length_drop]
      omega
    have hsplit : block.take a ++ block.drop a = block := List.take_append_drop a block
    refine ⟨block.drop a, block.take a, s'.pushAll (block.take a), ⟨hdrop, ?_⟩, ⟨htake, rfl⟩,
      hsplit.symm⟩
    rw [← pushAll_append, hsplit]
  · rintro ⟨newer, older, s₁, ⟨rfl, rfl⟩, ⟨rfl, rfl⟩, rfl⟩
    exact ⟨List.length_append, pushAll_append s' older newer⟩

end Stack

/-! ## Layer by layer -/

/-- Take layers off one by one. They are answered as they come, the newest first. -/
def popEach (d : Dispatch κ σ) : Nat → Run (Frame κ σ) (List Layer)
  | 0 => pure []
  | n + 1 => do
    let newest ← Op.popTop.run d
    let older ← popEach d n
    pure (newest :: older)

/-- Push layers one by one, in the order in which they are given. -/
def pushEach (d : Dispatch κ σ) : List Layer → Run (Frame κ σ) Unit
  | [] => pure ()
  | layer :: rest => do
    (Op.push layer).run d
    pushEach d rest

section

variable (d : Dispatch κ σ) {f : Frame κ σ} {s' : Stack κ} {block : List Layer} {count : Nat}

theorem run_pop_of_ok (h : f.stack.pop count = .ok (block, s')) :
    (Op.pop count).run d f = some (.ok block, { f with stack := s' }) := by
  simp only [Op.run, updateStack_apply, h]

/-- A block that is too large is refused, and nothing has changed. -/
theorem run_pop_of_lt (h : f.stack.depth < count) :
    (Op.pop count).run d f = some (.error (.underflow count f.stack.depth), f) := by
  simp only [Op.run, updateStack_apply, Stack.pop_of_lt h]

theorem run_popTop_push (f : Frame κ σ) (layer : Layer) :
    (Op.popTop : Op κ).run d { f with stack := f.stack.push layer } = some (.ok layer, f) :=
  rfl

theorem pushEach_apply (block : List Layer) (f : Frame κ σ) :
    pushEach d block f = some (.ok (), { f with stack := f.stack.pushAll block }) := by
  induction block generalizing f with
  | nil => rfl
  | cons layer rest ih =>
    have hpush : (Op.push layer).run d f =
        some (.ok (), { f with stack := f.stack.push layer }) := rfl
    exact (Run.bind_ok hpush).trans (ih _)

/-- **One by one, the layers of a block come off in the opposite order**, and leave what the block
leaves. The induction takes the newest layer off the end of the block. -/
theorem popEach_pushAll (block : List Layer) (f : Frame κ σ) :
    popEach d block.length { f with stack := f.stack.pushAll block } =
      some (.ok block.reverse, f) := by
  induction block using List.reverseRecOn with
  | nil => rfl
  | append_singleton older newest ih =>
    have hstack : f.stack.pushAll (older ++ [newest]) = (f.stack.pushAll older).push newest :=
      Stack.pushAll_append f.stack older [newest]
    have htop := run_popTop_push d { f with stack := f.stack.pushAll older } newest
    rw [hstack, List.length_append, List.length_singleton, List.reverse_concat]
    exact (Run.bind_ok htop).trans (Run.bind_ok ih)

/-- One by one, layers come off even where there are too few of them: when the failure comes, the
stack is empty. -/
theorem popEach_of_lt (h : f.stack.depth < count) :
    popEach d count f =
      some (.error (.underflow 1 0), { f with stack := { f.stack with layers := [] } }) := by
  induction count generalizing f with
  | zero => omega
  | succ n ih =>
    obtain ⟨⟨w, ⟨layers, level, fields, accessor, reserved⟩⟩, guard⟩ := f
    cases layers with
    | nil => rfl
    | cons newest older =>
      have hrest : older.length < n := Nat.lt_of_succ_lt_succ h
      have hlater := ih (f := ⟨⟨w, ⟨older, level, fields, accessor, reserved⟩⟩, guard⟩) hrest
      exact (Run.bind_ok rfl).trans (Run.bind_error hlater)

end

/-! ## Main theorem -/

/-- **Layers come off in blocks of any size, or one by one, and pushing undoes it.** Take any frame.

* Where there are at least `a + b` layers, a block of that many is what a block of `a` answers after
  one of `b`, followed by what that one of `b` answered, and it leaves the same.
* Where there are at least `n`, a block of `n` comes off. One by one, the same layers come in the
  opposite order, and the same is left. Pushing the block layer by layer, in its order, brings
  everything back to what it was.
* Where there are fewer than `n`, the block is refused, with both numbers, and everything is as it
  was. One by one, all layers are gone when the failure comes. -/
theorem Dispatch.popping_composes (d : Dispatch κ σ) (f : Frame κ σ) :
    (∀ a b, a + b ≤ f.stack.depth → ∃ newer older f₁ f₂,
      (Op.pop b).run d f = some (.ok newer, f₁) ∧
      (Op.pop a).run d f₁ = some (.ok older, f₂) ∧
      (Op.pop (a + b)).run d f = some (.ok (older ++ newer), f₂)) ∧
    (∀ n, n ≤ f.stack.depth → ∃ block f',
      (Op.pop n).run d f = some (.ok block, f') ∧ block.length = n ∧
      popEach d n f = some (.ok block.reverse, f') ∧
      pushEach d block f' = some (.ok (), f)) ∧
    ∀ n, f.stack.depth < n →
      (Op.pop n).run d f = some (.error (.underflow n f.stack.depth), f) ∧
      popEach d n f =
        some (.error (.underflow 1 0), { f with stack := { f.stack with layers := [] } }) := by
  refine ⟨?_, ?_, ?_⟩
  · intro a b hle
    have hpop := Stack.pop_of_le hle
    obtain ⟨newer, older, s₁, hnewer, holder, hblock⟩ := Stack.pop_add_eq_ok_iff.mp hpop
    rw [hblock] at hpop
    exact ⟨newer, older, { f with stack := s₁ }, _, run_pop_of_ok d hnewer,
      run_pop_of_ok d holder, run_pop_of_ok d hpop⟩
  · intro n hle
    obtain ⟨block, rest, hlength, hstack⟩ := Stack.exists_pushAll_of_le hle
    have hframe : { f with stack := rest.pushAll block } = f := by rw [hstack]
    have hpop : f.stack.pop n = .ok (block, rest) := Stack.pop_eq_ok_iff.mpr ⟨hlength, hstack⟩
    have heach := popEach_pushAll d block { f with stack := rest }
    have hpush := pushEach_apply d block { f with stack := rest }
    refine ⟨block, { f with stack := rest }, run_pop_of_ok d hpop, hlength, ?_, ?_⟩
    · rw [← hlength, ← heach, hframe]
    · rw [hpush, hframe]
  · intro n hlt
    exact ⟨run_pop_of_lt d hlt, popEach_of_lt d hlt⟩

/-- Three layers, the oldest of which is a value in which nothing can be looked up. -/
def threeLayers : Frame Failure Unit :=
  ⟨⟨{ host := () }, { layers := [.mapping ⟨1⟩, .object ⟨0⟩, .sealed (.int 3)], level := 2 }⟩, {}⟩

/-- Two layers come off after one, two come off and are pushed again, and four do not come off. -/
theorem threeLayers_popping :
    2 + 1 ≤ threeLayers.stack.depth ∧ threeLayers.stack.depth < 4 ∧
    (∃ f', (Op.pop 3).run (failingHost.dispatch 0) threeLayers =
      some (.ok ([.sealed (.int 3), .object ⟨0⟩] ++ [.mapping ⟨1⟩]), f')) ∧
    (∃ f', popEach (failingHost.dispatch 0) 2 threeLayers =
        some (.ok [.mapping ⟨1⟩, .object ⟨0⟩], f') ∧
      pushEach (failingHost.dispatch 0) [.object ⟨0⟩, .mapping ⟨1⟩] f' =
        some (.ok (), threeLayers)) ∧
    (Op.pop 4).run (failingHost.dispatch 0) threeLayers =
      some (.error (.underflow 4 3), threeLayers) := by
  obtain ⟨hadd, heach, hlarge⟩ := (failingHost.dispatch 0).popping_composes threeLayers
  refine ⟨by decide, by decide, ?_, ?_, (hlarge 4 (by decide)).1⟩
  · obtain ⟨newer, older, f₁, f₂, hnewer, holder, hboth⟩ := hadd 2 1 (by decide)
    cases hnewer
    cases holder
    exact ⟨_, hboth⟩
  · obtain ⟨block, f', hpop, -, hsingle, hback⟩ := heach 2 (by decide)
    cases hpop
    exact ⟨_, hsingle, hback⟩

end LayeredScope
