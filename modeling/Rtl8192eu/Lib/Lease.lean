import Rtl8192eu.Lib.Run

/-!
# Leases

Something is held as long as its lease is not 0. The events that `tick` counts shorten the lease.

* `left_le_run`   if no event shortens it by more than its tick, it lasts that many ticks;
* `left_run`      and no longer, if every event shortens it by its tick.
-/

namespace Lease

open Run

variable {σ ε : Type*} {step : σ → ε → σ} {I : σ → Prop} {C : σ → ε → Prop} (left : σ → Nat) (tick : ε → Bool)

theorem left_le_run {D : ε → Prop} (hI : ∀ s e, I s → I (step s e))
    (hstep : ∀ s e, I s → D e → left s ≤ left (step s e) + (tick e).toNat) (s : σ) (es : List ε) (hs : I s)
    (hD : ∀ e ∈ es, D e) : left s ≤ left (run step s es) + es.countP tick := by
  induction es generalizing s with
  | nil => exact Nat.le_refl _
  | cons e es ih =>
    have hone := hstep s e hs (hD e List.mem_cons_self)
    have hrest := ih (step s e) (hI s e hs) fun e' he' => hD e' (List.mem_cons_of_mem e he')
    have hcount : (e :: es).countP tick = es.countP tick + (tick e).toNat := by
      cases he : tick e <;> simp [he]
    rw [hcount]
    show left s ≤ left (run step (step s e) es) + (es.countP tick + (tick e).toNat)
    omega

theorem left_run (hI : ∀ s e, I s → I (step s e))
    (hstep : ∀ s e, I s → C s e → left (step s e) = left s - (tick e).toNat) (s : σ) (es : List ε) (hs : I s)
    (hC : Along step C s es) : left (run step s es) = left s - es.countP tick := by
  induction es generalizing s with
  | nil => rfl
  | cons e es ih =>
    have hone := hstep s e hs hC.1
    have hrest := ih (step s e) (hI s e hs) hC.2
    have hcount : (e :: es).countP tick = es.countP tick + (tick e).toNat := by
      cases he : tick e <;> simp [he]
    rw [hcount]
    show left (run step (step s e) es) = left s - (es.countP tick + (tick e).toNat)
    omega

end Lease
