import TaskSpace.Scheduler.Ticker

/-!
# How often a ticker calls for the injector

The counter of a ticker goes round at 32 bits, and an interval need not divide that. The gap this makes is
never longer than the others, since the counter comes to `0` when it goes round, and `0` calls for the injector
as well: among as many ticks in a row as the interval says, one calls for the injector.
-/

namespace TaskSpace.Ticker

/-- What the next ticks call for; the list tells for each of them whether the runtime shuts down. -/
def events (t : Ticker) (interval : UInt32) : List Bool → List TickEvent
  | [] => []
  | stopping :: rest => (t.next interval stopping).1 :: (t.next interval stopping).2.events interval rest

theorem event_eq_popInjector {tick interval : UInt32} :
    event tick interval false = .popInjector ↔ interval.toNat ∣ tick.toNat := by
  have hzero : ∀ n : UInt32, n = 0 ↔ n.toNat = 0 := fun n => by rw [← UInt32.toNat_inj]; rfl
  simp only [event, Bool.false_eq_true, if_false]
  by_cases hi : interval = 0
  · simp [hi, hzero tick]
  · rw [if_neg hi, Nat.dvd_iff_mod_eq_zero, ← UInt32.toNat_mod, ← hzero]
    split <;> simp_all

theorem event_eq_shutdown {tick interval : UInt32} {stopping : Bool} :
    event tick interval stopping = .shutdown ↔ stopping = true := by
  cases stopping with
  | true => simp [event]
  | false =>
    simp only [event, Bool.false_eq_true, if_false, iff_false]
    split <;> split <;> simp

/-- The `n`-th of some ticks, when the runtime goes on. -/
theorem event_mem_events (t : Ticker) (interval : UInt32) {n count : Nat} (h : n < count) :
    event (t.tick + 1 + .ofNat n) interval false ∈ t.events interval (List.replicate count false) := by
  induction count generalizing t n with
  | zero => exact absurd h (Nat.not_lt_zero n)
  | succ count ih =>
    rw [List.replicate_succ, events]
    cases n with
    | zero =>
      rw [show t.tick + 1 + UInt32.ofNat 0 = t.tick + 1 from UInt32.add_zero _]
      exact List.mem_cons_self
    | succ n =>
      refine List.mem_cons_of_mem _ ?_
      have hnext : t.tick + 1 + .ofNat (n + 1) = (t.next interval false).2.tick + 1 + .ofNat n := by
        rw [UInt32.ofNat_add]
        simp only [next]
        ac_rfl
      exact hnext ▸ ih (t.next interval false).2 (Nat.lt_of_succ_lt_succ h)

/-- In a stretch of as many numbers as the interval, the counter passes one that it divides: the next multiple, or
`0` if the counter goes round before that. -/
theorem exists_dvd_tick (tick : UInt32) {interval : UInt32} (h : 0 < interval) :
    ∃ n < interval.toNat, interval.toNat ∣ (tick + 1 + .ofNat n).toNat := by
  have hpos : 0 < interval.toNat := UInt32.lt_iff_toNat_lt.1 h
  have hbound : interval.toNat < 2 ^ 32 := interval.toNat_lt
  have htick : tick.toNat < 2 ^ 32 := tick.toNat_lt
  -- the gap to the next multiple, were the counter not to go round
  let gap := interval.toNat - 1 - tick.toNat % interval.toNat
  have hmod : tick.toNat % interval.toNat < interval.toNat := Nat.mod_lt _ hpos
  have hgap : gap < interval.toNat := by omega
  have hvalue : ∀ n < 2 ^ 32, (tick + 1 + .ofNat n).toNat = (tick.toNat + 1 + n) % 2 ^ 32 := fun n hn => by
    rw [UInt32.toNat_add, UInt32.toNat_add, UInt32.toNat_ofNat_of_lt' hn]
    simp
  rcases Nat.lt_or_ge (tick.toNat + 1 + gap) (2 ^ 32) with hlt | hge
  · refine ⟨gap, hgap, ?_⟩
    rw [hvalue gap (by omega), Nat.mod_eq_of_lt hlt]
    refine ⟨tick.toNat / interval.toNat + 1, ?_⟩
    have hdiv := Nat.div_add_mod tick.toNat interval.toNat
    rw [Nat.mul_succ]
    omega
  · refine ⟨2 ^ 32 - 1 - tick.toNat, by omega, ?_⟩
    rw [hvalue _ (by omega), show tick.toNat + 1 + (2 ^ 32 - 1 - tick.toNat) = 2 ^ 32 by omega, Nat.mod_self]
    exact Nat.dvd_zero _

/-- Among as many ticks in a row as the interval says, one calls for the injector, wherever the counter stands. -/
theorem popInjector_mem_events (t : Ticker) {interval : UInt32} (h : 0 < interval) :
    .popInjector ∈ t.events interval (List.replicate interval.toNat false) := by
  obtain ⟨n, hlt, hdvd⟩ := exists_dvd_tick t.tick h
  exact event_eq_popInjector.2 hdvd ▸ event_mem_events t interval hlt

/-- The counter goes round after the first of five ticks; the next to call for the injector is the one at `0`. -/
example : (Ticker.mk 0xfffffffe).events 7 (List.replicate 5 false) =
    [.none, .popInjector, .none, .none, .none] := by decide

end TaskSpace.Ticker
