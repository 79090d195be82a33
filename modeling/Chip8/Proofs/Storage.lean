import Chip8.Storage
import Mathlib.Data.Rat.Floor
import Mathlib.Tactic.Positivity

/-!
# Blocks of computed sizes

A computed size is the binary64 value of a count of bytes.  Up to the most bytes that can be counted
it is exact, and the block is made if the host has room for it (`reserve_of_le`).  A greater one is
refused on every host (`reserve_of_lt`): it may be rounded, but not so far down that it would count
bytes (`le_truncate_nearest`).
-/

namespace Chip8

namespace Number

/-! ### Large natural numbers -/

theorem floor_le_roundHalfEven (q : Rat) : q.floor ≤ roundHalfEven q := by
  unfold roundHalfEven
  simp only
  split_ifs <;> omega

theorem le_log2_of_le {n : Nat} (h : 0x20000000000000 ≤ n) : 53 ≤ Nat.log2 n :=
  (Nat.le_log2 (by omega)).2 h

/-- The values around a large number are at least two apart. -/
theorem spacing_natCast {n : Nat} (h : 0x20000000000000 ≤ n) :
    spacing ((n : Int) : Rat) = (Nat.log2 n - 52 : Nat) := by
  have hlog := le_log2_of_le h
  rw [spacing, binade_natCast (by omega)]
  omega

/-- So many points of its grid are at or below a large number. -/
theorem le_roundHalfEven {n : Nat} (h : 0x20000000000000 ≤ n) :
    2 ^ 52 ≤ roundHalfEven (((n : Int) : Rat) / 2 ^ (Nat.log2 n - 52)) := by
  have hlow : 2 ^ 52 * 2 ^ (Nat.log2 n - 52) ≤ n := by
    rw [← Nat.pow_add, Nat.add_sub_of_le (Nat.le_of_succ_le (le_log2_of_le h))]
    exact Nat.log2_self_le (by omega)
  refine Int.le_trans ?_ (floor_le_roundHalfEven _)
  rw [Rat.le_floor_iff, le_div_iff₀ (by positivity)]
  exact_mod_cast hlow

/-- A natural number of at least `2 ^ 53` is not rounded to a lesser number. -/
theorem le_truncate_nearest {n : Nat} (h : 0x20000000000000 ≤ n) :
    nearest ((n : Int) : Rat) = .infinity false ∨
      0x20000000000000 ≤ (nearest ((n : Int) : Rat)).truncate := by
  have hlog := le_log2_of_le h
  have hpos : (0 : Rat) < ((n : Int) : Rat) := Rat.intCast_pos.2 (by omega)
  have hpoint (m : Int) (u : Nat) : (m : Rat) * 2 ^ u = ((m * 2 ^ u : Int) : Rat) := by
    push_cast
    rfl
  unfold nearest
  rw [if_neg (Rat.ne_of_gt hpos), if_pos hpos]
  unfold nearestPositive
  simp only [spacing_natCast h, Rat.zpow_natCast]
  split_ifs
  · exact .inl rfl
  · right
    rw [hpoint]
    show 0x20000000000000 ≤ (ofInt _).truncate
    rw [truncate_ofInt]
    have htwo : (2 : Int) ≤ 2 ^ (Nat.log2 n - 52) := le_self_pow₀ (by decide) (by omega)
    have hsteps := le_roundHalfEven h
    calc (0x20000000000000 : Int) = 2 ^ 52 * 2 := by decide
      _ ≤ roundHalfEven (((n : Int) : Rat) / 2 ^ (Nat.log2 n - 52)) * 2 ^ (Nat.log2 n - 52) := by
        gcongr

end Number

namespace Storage

/-! ### Counts -/

theorem isCount_of_lt {size : Number} (h : countable < size.truncate) : isCount size = false := by
  simp [isCount, Int.not_le.2 h]

/-- A count beyond the countable ones, if it is computed, counts no bytes. -/
theorem isCount_nearest_of_lt {n : Nat} (h : countable < n) :
    isCount (.nearest ((n : Int) : Rat)) = false := by
  rcases Number.le_truncate_nearest h with hinf | hle
  · rw [hinf]
    rfl
  · exact isCount_of_lt (Int.lt_of_lt_of_le (by decide) hle)

theorem reserve_of_le (host : Host) {n : Nat} (h : n ≤ countable) :
    reserve host (.nearest (n : Nat)) =
      if host.hasRoom n then .ok n else .error (.range "Array buffer allocation failed") := by
  have hexact : n < 0x20000000000000 := Nat.lt_of_le_of_lt h (by decide)
  rw [← Rat.intCast_natCast, Number.nearest_natCast hexact]
  exact reserve_ofInt host h

theorem reserve_of_lt (host : Host) {n : Nat} (h : countable < n) :
    ∃ text, reserve host (.nearest (n : Nat)) = .error (.range text) := by
  rw [← Rat.intCast_natCast]
  exact ⟨_, reserve_of_not_isCount host (isCount_nearest_of_lt h)⟩

/-- What cannot be counted, or has no room, is refused. -/
theorem exists_reserve_eq_error (host : Host) {n : Nat}
    (h : countable < n ∨ host.hasRoom n = false) :
    ∃ text, reserve host (.nearest (n : Nat)) = .error (.range text) := by
  by_cases hcount : n ≤ countable
  · have hroom : host.hasRoom n = false := h.resolve_left (Nat.not_lt.2 hcount)
    rw [reserve_of_le host hcount, hroom]
    exact ⟨_, rfl⟩
  · exact reserve_of_lt host (Nat.lt_of_not_le hcount)

end Storage

end Chip8
