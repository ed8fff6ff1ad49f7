import LayeredScope.Stack.Search
import Mathlib.Algebra.GroupWithZero.Nat

/-!
# The size of a stack

A stack adds up what its layers report, in words of 64 bits and from the oldest layer on. The sum is
taken whatever it comes to, so it is right as long as it fits into a word.

* `World.count?` — what a layer reports, as a number of any size; `World.unsized` — the failure of a
  layer that reports nothing.
* `World.size_eq` — **one equation for the size**: the oldest layer without a size fails, and
  otherwise the size is the sum, as a word.
* `World.size_exact_iff` — when the size is the sum, and when a stack counts as empty.
-/

namespace LayeredScope

variable {κ σ : Type}

namespace World

/-- The number of entries that a layer reports. -/
def count? (w : World κ σ) : Layer → Option Nat
  | .mapping m => some (w.entries m).size
  | .object id => (w.object id).size.map UInt64.toNat
  | .sealed _ => none

/-- The failure of a layer that reports no number. -/
def unsized (w : World κ σ) (layer : Layer) : Failure :=
  .typeMismatch "sized scope" (w.typeName layer.toValue)

/-- The oldest layer that reports no number. -/
def oldestUnsized? (w : World κ σ) (s : Stack κ) : Option Layer :=
  s.layers.reverse.find? fun layer => (w.count? layer).isNone

/-- What the layers report, added up. -/
def total (w : World κ σ) (s : Stack κ) : Nat :=
  (s.layers.map fun layer => (w.count? layer).getD 0).sum

variable {w : World κ σ} {s : Stack κ}

/-! ## Adding up -/

/-- A sealed layer is a value that is neither a mapping nor an object. -/
theorem layerSize_eq (w : World κ σ) (layer : Layer) :
    w.layerSize layer =
      match w.count? layer with
      | some n => .ok (UInt64.ofNat n)
      | none => .error (w.unsized layer) := by
  cases layer with
  | mapping m => rfl
  | sealed v => rfl
  | object id =>
    cases hsize : (w.object id).size <;>
      simp [layerSize, count?, unsized, Layer.toValue, typeName, hsize]

/-- The layers are gone through from the first to the last, and the first without a number fails. -/
theorem totalSize_eq (w : World κ σ) (start : UInt64) (layers : List Layer) :
    w.totalSize start layers =
      match layers.find? fun layer => (w.count? layer).isNone with
      | some layer => .error (w.unsized layer)
      | none =>
        .ok (start + UInt64.ofNat (layers.map fun layer => (w.count? layer).getD 0).sum) := by
  induction layers generalizing start with
  | nil => simp [totalSize]
  | cons layer rest ih =>
    cases hcount : w.count? layer with
    | none => simp [totalSize, layerSize_eq, hcount, bind, Except.bind]
    | some n =>
      have hstep : w.totalSize start (layer :: rest) =
          w.totalSize (start + UInt64.ofNat n) rest := by
        simp [totalSize, layerSize_eq, hcount, bind, Except.bind]
      rw [hstep, ih]
      simp only [List.find?_cons, hcount, Option.isNone_some, List.map_cons, List.sum_cons,
        Option.getD_some, UInt64.ofNat_add, UInt64.add_assoc]

/-- **The size of a stack.** -/
theorem size_eq (w : World κ σ) (s : Stack κ) :
    w.size s =
      match w.oldestUnsized? s with
      | some layer => .error (w.unsized layer)
      | none => .ok (UInt64.ofNat (w.total s)) := by
  unfold size oldestUnsized? total
  rw [totalSize_eq, List.map_reverse, List.sum_reverse]
  simp

/-- Every layer reports a number. -/
theorem oldestUnsized?_eq_none :
    w.oldestUnsized? s = none ↔ ∀ layer ∈ s.layers, (w.count? layer).isSome := by
  simp [oldestUnsized?, Option.isSome_iff_ne_none]

/-- It reports no number, and all the layers below it, which are older, do. -/
theorem oldestUnsized?_eq_some {layer : Layer} :
    w.oldestUnsized? s = some layer ↔
      w.count? layer = none ∧ ∃ newer older, s.layers = newer ++ layer :: older ∧
        ∀ below ∈ older, (w.count? below).isSome := by
  unfold oldestUnsized?
  rw [List.find?_eq_some_iff_append, Option.isNone_iff_eq_none]
  constructor
  · rintro ⟨hcount, passed, rest, hreverse, hpassed⟩
    refine ⟨hcount, rest.reverse, passed.reverse, ?_, fun below hbelow => ?_⟩
    · rw [← List.reverse_inj, hreverse]
      simp
    · simpa [Option.isSome_iff_ne_none] using hpassed below (List.mem_reverse.mp hbelow)
  · rintro ⟨hcount, newer, older, hlayers, holder⟩
    refine ⟨hcount, older.reverse, newer.reverse, by simp [hlayers], fun below hbelow => ?_⟩
    simpa [Option.isSome_iff_ne_none] using holder below (List.mem_reverse.mp hbelow)

/-! ## What the size says -/

/-- A stack has a size exactly if each of its layers has, and that is the sum without what does not
fit into a word. -/
theorem size_ok_iff {n : UInt64} :
    w.size s = .ok n ↔
      (∀ layer ∈ s.layers, (w.count? layer).isSome) ∧ n.toNat = w.total s % 2 ^ 64 := by
  rw [← oldestUnsized?_eq_none, size_eq]
  cases w.oldestUnsized? s with
  | some layer => simp
  | none => simp [← UInt64.toNat_inj, eq_comm]

/-- It has none exactly if the oldest layer without one says so. -/
theorem size_error_iff {e : Failure} :
    w.size s = .error e ↔
      ∃ newer layer older, s.layers = newer ++ layer :: older ∧
        (∀ below ∈ older, (w.count? below).isSome) ∧ w.count? layer = none ∧
        e = .typeMismatch "sized scope" (w.typeName layer.toValue) := by
  have hsome : w.size s = .error e ↔ ∃ layer, w.oldestUnsized? s = some layer ∧
      e = w.unsized layer := by
    rw [size_eq]
    cases w.oldestUnsized? s <;> simp [eq_comm]
  rw [hsome]
  constructor
  · rintro ⟨layer, holdest, rfl⟩
    obtain ⟨hcount, newer, older, hlayers, holder⟩ := oldestUnsized?_eq_some.mp holdest
    exact ⟨newer, layer, older, hlayers, holder, hcount, rfl⟩
  · rintro ⟨newer, layer, older, hlayers, holder, hcount, rfl⟩
    exact ⟨layer, oldestUnsized?_eq_some.mpr ⟨hcount, newer, older, hlayers, holder⟩, rfl⟩

/-- A word is zero when what it holds of a number is nothing. -/
theorem ofNat_beq_zero (n : Nat) : (UInt64.ofNat n == 0) = decide (2 ^ 64 ∣ n) := by
  rw [Bool.eq_iff_iff, beq_iff_eq, decide_eq_true_iff, ← UInt64.toNat_inj, UInt64.toNat_ofNat',
    Nat.dvd_iff_mod_eq_zero]
  rfl

/-- A stack is empty if nothing of its sum fits into a word. -/
theorem isEmpty_eq (w : World κ σ) (s : Stack κ) :
    w.isEmpty s =
      match w.oldestUnsized? s with
      | some layer => .error (w.unsized layer)
      | none => .ok (decide (2 ^ 64 ∣ w.total s)) := by
  have hmap : w.isEmpty s = (w.size s).map (· == 0) := by
    unfold isEmpty
    cases w.size s <;> rfl
  rw [hmap, size_eq]
  cases w.oldestUnsized? s with
  | some layer => rfl
  | none => simp [Except.map, ofNat_beq_zero]

theorem isEmpty_ok_iff {b : Bool} :
    w.isEmpty s = .ok b ↔
      (∀ layer ∈ s.layers, (w.count? layer).isSome) ∧ b = decide (2 ^ 64 ∣ w.total s) := by
  rw [← oldestUnsized?_eq_none, isEmpty_eq]
  cases w.oldestUnsized? s <;> simp [eq_comm]

/-- The question fails as the size does. -/
theorem isEmpty_error_iff {e : Failure} : w.isEmpty s = .error e ↔ w.size s = .error e := by
  rw [isEmpty_eq, size_eq]
  cases w.oldestUnsized? s <;> simp

theorem total_eq_zero_iff :
    w.total s = 0 ↔ ∀ layer ∈ s.layers, (w.count? layer).getD 0 = 0 := by
  simp [total, List.sum_eq_zero_iff_forall_eq_nat]

/-! ## Main theorem -/

/-- **The size of a stack is the sum of what its layers report as long as that fits into a word.**
If every layer reports a number, the size is their sum modulo 2 ^ 64, so it is the sum exactly below
that; and the stack counts as empty exactly if the sum is a multiple of 2 ^ 64, which besides zero
it can be only where it does not fit. If some layer reports none, the size is the failure of the
oldest such layer, whatever the others report, and so is the question whether the stack is empty. -/
theorem size_exact_iff (w : World κ σ) (s : Stack κ) :
    (∀ n, w.size s = .ok n ↔
      (∀ layer ∈ s.layers, (w.count? layer).isSome) ∧ n.toNat = w.total s % 2 ^ 64) ∧
    ((∀ layer ∈ s.layers, (w.count? layer).isSome) →
      ((∃ n, w.size s = .ok n ∧ n.toNat = w.total s) ↔ w.total s < 2 ^ 64) ∧
      (w.isEmpty s = .ok true ↔ 2 ^ 64 ∣ w.total s) ∧
      (w.isEmpty s = .ok false ↔ ¬ 2 ^ 64 ∣ w.total s) ∧
      (w.total s < 2 ^ 64 →
        (w.isEmpty s = .ok true ↔ ∀ layer ∈ s.layers, w.count? layer = some 0))) ∧
    ∀ e, (w.size s = .error e ↔
        ∃ newer layer older, s.layers = newer ++ layer :: older ∧
          (∀ below ∈ older, (w.count? below).isSome) ∧ w.count? layer = none ∧
          e = .typeMismatch "sized scope" (w.typeName layer.toValue)) ∧
      (w.isEmpty s = .error e ↔ w.size s = .error e) := by
  refine ⟨fun n => size_ok_iff, fun hsized => ⟨?_, ?_, ?_, ?_⟩,
    fun e => ⟨size_error_iff, isEmpty_error_iff⟩⟩
  · constructor
    · rintro ⟨n, -, hn⟩
      have hlt := n.toNat_lt
      omega
    · intro hlt
      have hn : (UInt64.ofNat (w.total s)).toNat = w.total s % 2 ^ 64 := UInt64.toNat_ofNat'
      exact ⟨_, size_ok_iff.mpr ⟨hsized, hn⟩, by omega⟩
  · rw [isEmpty_ok_iff, and_iff_right hsized, eq_comm, decide_eq_true_iff]
  · rw [isEmpty_ok_iff, and_iff_right hsized, eq_comm, decide_eq_false_iff_not]
  · intro hlt
    have hzero : 2 ^ 64 ∣ w.total s ↔ w.total s = 0 := by
      rw [Nat.dvd_iff_mod_eq_zero, Nat.mod_eq_of_lt hlt]
    rw [isEmpty_ok_iff, eq_comm, decide_eq_true_iff, hzero, total_eq_zero_iff]
    constructor
    · rintro ⟨-, hall⟩ layer hlayer
      obtain ⟨n, hn⟩ := Option.isSome_iff_exists.mp (hsized layer hlayer)
      have := hall layer hlayer
      simp_all
    · intro hall
      exact ⟨hsized, fun layer hlayer => by simp [hall layer hlayer]⟩

end World

/-- Two objects that report a size each. -/
def sizedWorld (first second : UInt64) : World Unit Unit where
  objects := #[.host { typeName := "first", size := some first },
    .host { typeName := "second", size := some second }]
  host := ()

/-- The second object over the first one. -/
def pairStack : Stack Unit := { layers := [.object ⟨1⟩, .object ⟨0⟩] }

/-- Their sizes add up to the greatest word. -/
def fullWorld : World Unit Unit := sizedWorld 0x7fffffffffffffff 0x8000000000000000

/-- Their sizes add up to one more. -/
def overfullWorld : World Unit Unit := sizedWorld 0x8000000000000000 0x8000000000000000

/-- The greatest sum that fits is right. -/
theorem fullWorld_exact :
    (∀ layer ∈ pairStack.layers, (fullWorld.count? layer).isSome) ∧
    fullWorld.total pairStack < 2 ^ 64 ∧
    (∃ n, fullWorld.size pairStack = .ok n ∧ n.toNat = fullWorld.total pairStack) ∧
    fullWorld.isEmpty pairStack ≠ .ok true := by
  obtain ⟨-, hexact, -⟩ := fullWorld.size_exact_iff pairStack
  have hsized : ∀ layer ∈ pairStack.layers, (fullWorld.count? layer).isSome := by
    simp [pairStack, fullWorld, sizedWorld, World.count?, World.object, Object.size]
  have hlt : fullWorld.total pairStack < 2 ^ 64 := by decide
  obtain ⟨hfits, -, -, hempty⟩ := hexact hsized
  refine ⟨hsized, hlt, hfits.mpr hlt, fun h => ?_⟩
  have hzero := (hempty hlt).mp h (.object ⟨0⟩) (by simp [pairStack])
  exact absurd hzero (by decide)

/-- One more, and the size is zero: the stack counts as empty, though no layer reports that it is.
-/
theorem overfullWorld_wraps :
    overfullWorld.layerSize (.object ⟨0⟩) = .ok 0x8000000000000000 ∧
    overfullWorld.layerSize (.object ⟨1⟩) = .ok 0x8000000000000000 ∧
    overfullWorld.total pairStack = 2 ^ 64 ∧ overfullWorld.size pairStack = .ok 0 ∧
    overfullWorld.isEmpty pairStack = .ok true :=
  ⟨rfl, rfl, rfl, rfl, rfl⟩

end LayeredScope
