import Flowgraph.Run.Attempt
import Mathlib.Tactic

/-! How far the waiting times between attempts go. Whole numbers give waits of whole seconds for ever. A factor that
is a floating-point number has a last power: beyond it no waiting time can be computed, although the ceiling would
bound it. -/

namespace Flowgraph

namespace Backoff

/-- A waiting time can be computed after each of the first so many attempts. -/
def Lasts (b : Backoff) (attempts : Nat) : Prop :=
  ∀ k : Nat, 1 ≤ k → k ≤ attempts → ∃ delay, b.delay k = .ok delay

/-- The waits after the first so many attempts come to an end. -/
def Ends (b : Backoff) (attempts : Nat) : Prop :=
  ∀ k : Nat, 1 ≤ k → k ≤ attempts → ∀ delay, b.delay k = .ok delay → (microsOf delay).isSome

theorem Lasts.succ {b : Backoff} {m : Nat} {delay : Number} (h : b.Lasts m) (hd : b.delay (m + 1 : Nat) = .ok delay) :
    b.Lasts (m + 1) := by
  intro k h1 hk
  rcases hk.eq_or_lt with rfl | hlt
  · exact ⟨delay, hd⟩
  · exact h k h1 (Nat.le_of_lt_succ hlt)

theorem Lasts.delay_ne {b : Backoff} {k m : Nat} {g : Failure} (h : b.Lasts m) (h1 : 1 ≤ k)
    (hd : b.delay k = .error g) : m < k := by
  by_contra hle
  obtain ⟨delay, hok⟩ := h k h1 (not_lt.1 hle)
  rw [hd] at hok
  cases hok

/-! Whole numbers -/

/-- Whole numbers give waits of whole seconds. -/
theorem delay_of_whole (base ceiling factor : Int) {attempt : Nat} (h1 : 1 ≤ attempt) :
    ∃ n : Int, (⟨.int base, .int ceiling, .int factor, none⟩ : Backoff).delay attempt = .ok (.int n) := by
  have hexp : (0 : Int) ≤ (attempt : Int) - 1 := by omega
  simp only [delay, Number.pow, if_pos hexp, Number.mul, Number.lift, Number.min, bind, Except.bind, pure, Except.pure,
    Except.ok.injEq]
  split_ifs
  · exact ⟨_, rfl⟩
  · exact ⟨_, rfl⟩

theorem lasts_of_whole (base ceiling factor : Int) (attempts : Nat) :
    Lasts ⟨.int base, .int ceiling, .int factor, none⟩ attempts := by
  intro k h1 _
  obtain ⟨n, hn⟩ := delay_of_whole base ceiling factor h1
  exact ⟨_, hn⟩

theorem ends_of_whole (base ceiling factor : Int) (attempts : Nat) :
    Ends ⟨.int base, .int ceiling, .int factor, none⟩ attempts := by
  intro k h1 _ delay hdelay
  obtain ⟨n, hn⟩ := delay_of_whole base ceiling factor h1
  rw [hn] at hdelay
  rw [← Except.ok.inj hdelay]
  rfl

end Backoff

/-! Floating-point numbers -/

namespace Number

theorem powFloat_of_exceeds {x y : Float} (hzero : (x == 0 && decide (y < 0)) = false) (h0 : (y == 0) = false)
    (h1 : (y == 1) = false) (h : powExceeds x y = true) : powFloat x y = .error outOfRange := by
  simp [powFloat, hzero, h0, h1, h]

theorem toFloat_int {n : Int} (h : Decimal.isFinite (Decimal.nearestInt n) = true) :
    toFloat (.int n) = .ok (Decimal.nearestInt n) := by
  simp [toFloat, h]

end Number

namespace Backoff

/-- The standard factor has no power number 1024. -/
theorem delay_standardFactor {b : Backoff} (h : b.factor = standardFactor) :
    b.delay (1025 : Nat) = .error Number.outOfRange := by
  have hexponent : Number.toFloat (.int 1024) = .ok (Decimal.nearestInt 1024) := Number.toFloat_int (by decide +kernel)
  have hgrowth : b.factor.pow (.int ((1025 : Nat) - 1)) = .error Number.outOfRange := by
    rw [h]
    change (Number.toFloat (.int 1024) >>= fun y => Number.powFloat 2.0 y) = _
    rw [hexponent]
    change Number.powFloat 2.0 (Decimal.nearestInt 1024) = _
    exact Number.powFloat_of_exceeds (by decide +kernel) (by decide +kernel) (by decide +kernel) (by decide +kernel)
  rw [delay, hgrowth]
  rfl

end Backoff

end Flowgraph
