import Chip8.Proofs.Emulator.Stretch

/-!
# Steps under a clock

`Emulator.clocked` numbers the steps from the start on and ticks the timers after every so many of
them.  Between two ticks these are plain steps (`clocked_within`), so a stretch of clocked steps is
made of the stretches of its frames (`succeed_frame`, `makes_frame`).
-/

namespace Chip8.Emulator

/-- The emulator before the step of a number, with a tick after every `length` steps. -/
def clocked (e : Emulator) (length : Nat) : Nat → Emulator
  | 0 => e
  | i + 1 =>
    let next := (e.clocked length i).step.state
    if length ∣ i + 1 then next.tickTimers else next

variable {e : Emulator} {length : Nat}

theorem clocked_of_dvd {i : Nat} (h : length ∣ i + 1) :
    e.clocked length (i + 1) = (e.clocked length i).step.state.tickTimers := by
  rw [clocked, if_pos h]

theorem clocked_of_not_dvd {i : Nat} (h : ¬ length ∣ i + 1) :
    e.clocked length (i + 1) = (e.clocked length i).step.state := by
  rw [clocked, if_neg h]

/-- Before a frame is complete its steps are plain ones. -/
theorem clocked_within (frame : Nat) {j : Nat} (h : j < length) :
    e.clocked length (frame * length + j) = (e.clocked length (frame * length)).stepped j := by
  induction j with
  | zero => rfl
  | succ j ih =>
    have hwithin : ¬ length ∣ frame * length + j + 1 := by
      rw [Nat.add_assoc, Nat.dvd_add_right (Nat.dvd_mul_left length frame)]
      exact Nat.not_dvd_of_pos_of_lt (Nat.succ_pos j) h
    rw [← Nat.add_assoc, clocked_of_not_dvd hwithin, ih (Nat.lt_of_succ_lt h), step_stepped]

/-- A frame that is complete has ticked the timers. -/
theorem clocked_frame (frame : Nat) (hlength : 1 ≤ length) :
    e.clocked length ((frame + 1) * length) =
      ((e.clocked length (frame * length)).stepped length).tickTimers := by
  obtain ⟨last, rfl⟩ := Nat.exists_eq_add_of_le' hlength
  have hcount : (frame + 1) * (last + 1) = frame * (last + 1) + last + 1 := by
    rw [Nat.succ_mul, Nat.add_assoc]
  have hwhole : last + 1 ∣ frame * (last + 1) + last + 1 := hcount ▸ Nat.dvd_mul_left _ _
  rw [hcount, clocked_of_dvd hwhole, clocked_within frame (Nat.lt_succ_self last), step_stepped]

/-- The steps of a frame succeed if all steps do up to its end. -/
theorem succeed_frame {frame : Nat} (h : Succeed (e.clocked length) ((frame + 1) * length)) :
    Succeed (e.clocked length (frame * length)).stepped length := by
  intro j hj
  have hlt : frame * length + j < (frame + 1) * length := by
    rw [Nat.succ_mul]
    exact Nat.add_lt_add_left hj _
  rw [← clocked_within frame hj]
  exact h _ hlt

/-- The frame of the first step that fails is cut short there. -/
theorem makes_frame {count frame j : Nat} {f : Failure} (hj : j < length)
    (h : Makes (e.clocked length) count ⟨frame * length + j, some f⟩) :
    Makes (e.clocked length (frame * length)).stepped length ⟨j, some f⟩ := by
  obtain _ | ⟨hlt, hsucceed, hfails⟩ := h
  refine .cutShort hj ?_ ?_
  · intro i hi
    rw [← clocked_within frame (Nat.lt_trans hi hj)]
    exact hsucceed _ (Nat.add_lt_add_left hi _)
  · rw [← clocked_within frame hj]
    exact hfails

theorem traceable_clocked (he : e.machine.Traceable) (i : Nat) :
    (e.clocked length i).machine.Traceable := by
  induction i with
  | zero => exact he
  | succ i ih =>
    have hstep := traceable_perform ih .step
    rw [clocked]
    split
    · exact traceable_perform hstep .tick
    · exact hstep

end Chip8.Emulator
