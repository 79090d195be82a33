import Chip8.Random
import Mathlib.Data.Fintype.EquivFin
import Mathlib.Dynamics.PeriodicPts.Lemmas

/-!
# The seeded generator never gets stuck

A step of the generator mixes the state three times with a shifted copy of itself.  Shifted often
enough, a word vanishes, so that each mixing can be undone (`mix_injective`) and the whole step too
(`advance_injective`).  From this all else follows: streams that differ never meet, zero is reached
from zero alone, and as there are finitely many states, every stream comes back to its start.

`after` is a source after so many draws, and `start` the state that a seed stands for.  The headline
is `seeded_streams`.
-/

namespace Chip8.RandomSource

/-! ### One step -/

/-- Words can be told apart after each is mixed with an image of itself, if the image respects
mixtures and vanishes when it is taken often enough. -/
theorem mix_injective {image : UInt32 → UInt32}
    (hmix : ∀ x y, image (x ^^^ y) = image x ^^^ image y) {m : Nat}
    (hvanish : ∀ x, image^[m] x = 0) : Function.Injective fun x => x ^^^ image x := by
  intro x y h
  have hcancel (a b : UInt32) : a ^^^ (a ^^^ b) = b := by
    rw [← UInt32.xor_assoc, UInt32.xor_self, UInt32.zero_xor]
  have hfixed : image (x ^^^ y) = x ^^^ y :=
    calc image (x ^^^ y)
        = x ^^^ (x ^^^ image x) ^^^ image y := by rw [hmix, hcancel]
      _ = x ^^^ (y ^^^ image y) ^^^ image y := congrArg (x ^^^ · ^^^ image y) h
      _ = x ^^^ y := by
        rw [UInt32.xor_assoc, UInt32.xor_assoc, UInt32.xor_self, UInt32.xor_zero]
  apply UInt32.xor_eq_zero_iff.1
  rw [← hvanish (x ^^^ y)]
  exact (Function.iterate_fixed hfixed m).symm

theorem shiftLeft_13_vanishes (x : UInt32) : (fun x : UInt32 => x <<< 13)^[3] x = 0 := by
  apply UInt32.toBitVec_inj.1
  simp [← BitVec.shiftLeft_add]

theorem shiftRight_17_vanishes (x : UInt32) : (fun x : UInt32 => x >>> 17)^[2] x = 0 := by
  apply UInt32.toBitVec_inj.1
  simp [← BitVec.shiftRight_add, BitVec.ushiftRight_eq_zero]

theorem shiftLeft_5_vanishes (x : UInt32) : (fun x : UInt32 => x <<< 5)^[7] x = 0 := by
  apply UInt32.toBitVec_inj.1
  simp [← BitVec.shiftLeft_add]

/-- States that differ differ after a step. -/
theorem advance_injective : Function.Injective advance := by
  have hfirst : Function.Injective fun s : UInt32 => s ^^^ s <<< 13 :=
    mix_injective (fun _ _ => UInt32.shiftLeft_xor) shiftLeft_13_vanishes
  have hsecond : Function.Injective fun s : UInt32 => s ^^^ s >>> 17 :=
    mix_injective (fun _ _ => UInt32.shiftRight_xor) shiftRight_17_vanishes
  have hthird : Function.Injective fun s : UInt32 => s ^^^ s <<< 5 :=
    mix_injective (fun _ _ => UInt32.shiftLeft_xor) shiftLeft_5_vanishes
  intro s t h
  simp only [advance] at h
  exact hfirst (hsecond (hthird h))

/-- Zero is reached from zero alone. -/
theorem iterate_advance_ne_zero {s : UInt32} (hs : s ≠ 0) (n : Nat) : advance^[n] s ≠ 0 := by
  have hzero : advance^[n] 0 = 0 := Function.iterate_fixed (show advance 0 = 0 by decide) n
  intro h
  exact hs ((advance_injective.iterate n) (h.trans hzero.symm))

/-- Every state recurs. -/
theorem exists_iterate_advance_eq (s : UInt32) : ∃ n > 0, advance^[n] s = s := by
  have : Finite UInt32 := Finite.of_injective UInt32.toFin fun _ _ => UInt32.toFin_inj.1
  exact Function.mem_periodicPts.1 (advance_injective.mem_periodicPts s)

/-! ### Many draws -/

/-- The source after so many draws. -/
def after (source : RandomSource) : Nat → RandomSource
  | 0 => source
  | n + 1 => (source.after n).next.2

theorem after_xorshift (s : UInt32) (n : Nat) :
    (xorshift s).after n = .xorshift (advance^[n] s) := by
  induction n with
  | zero => rfl
  | succ n ih =>
    rw [after, ih, Function.iterate_succ_apply']
    rfl

/-- The byte that is drawn is the upper eight bits of the state after the draw. -/
theorem next_xorshift (s : UInt32) :
    (xorshift s).next =
      (.ok (.ofInt ((advance s).toNat / 2 ^ 24 : Nat)), .xorshift (advance s)) := by
  have hbyte : (advance s >>> 24).toUInt8.toNat = (advance s).toNat / 2 ^ 24 := by
    have hlt := (advance s).toNat_lt
    rw [UInt32.toNat_toUInt8, UInt32.toNat_shiftRight, Nat.shiftRight_eq_div_pow]
    show (advance s).toNat / 2 ^ 24 % 2 ^ 8 = _
    omega
  rw [next, ofByte, hbyte]

/-! ### Seeds -/

/-- The state that a seed stands for: the seed modulo `2 ^ 32`, with another state in place of
zero. -/
def start (seed : Int) : Nat :=
  if seed % 2 ^ 32 = 0 then 0x9E3779B9 else (seed % 2 ^ 32).toNat

theorem start_pos (seed : Int) : 0 < start seed := by
  unfold start
  split <;> omega

theorem seeded_ofInt (seed : Int) :
    ∃ s : UInt32, seeded (.ofInt seed) = .xorshift s ∧ s.toNat = start seed := by
  have hlow : (Number.ofInt seed).toUInt32.toNat = (seed % 2 ^ 32).toNat := by
    rw [Number.toUInt32, Number.truncate_ofInt, UInt32.ofInt, UInt32.toNat_ofNat']
    omega
  have hzero : (Number.ofInt seed).toUInt32 = 0 ↔ seed % 2 ^ 32 = 0 := by
    rw [← UInt32.toNat_inj, hlow, UInt32.toNat_zero]
    omega
  refine ⟨_, rfl, ?_⟩
  simp only [hzero, start]
  split
  · rfl
  · exact hlow

/-- Seeds that stand for the same state have the same stream, and others have none in common, not
even after many draws. -/
theorem after_seeded_eq_iff (seed other : Int) (n : Nat) :
    (seeded (.ofInt seed)).after n = (seeded (.ofInt other)).after n ↔
      start seed = start other := by
  obtain ⟨s, hs, hstart⟩ := seeded_ofInt seed
  obtain ⟨t, ht, hstart'⟩ := seeded_ofInt other
  rw [hs, ht, after_xorshift, after_xorshift, xorshift.injEq, (advance_injective.iterate n).eq_iff,
    ← hstart, ← hstart', UInt32.toNat_inj]

/-- What a generator does with a seed: its states, from the start on. -/
structure Streams (seed : Int) (state : Nat → UInt32) : Prop where
  start_eq : (state 0).toNat = start seed
  after_eq : ∀ n, (seeded (.ofInt seed)).after n = .xorshift (state n)
  range : ∀ n, 1 ≤ (state n).toNat ∧ (state n).toNat ≤ 2 ^ 32 - 1
  /-- The byte of a draw is the upper eight bits of the state that it leads to. -/
  byte_eq : ∀ n, ((seeded (.ofInt seed)).after n).next.1 =
    .ok (.ofInt ((state (n + 1)).toNat / 2 ^ 24 : Nat))
  /-- The start comes back. -/
  recurs : ∃ n > 0, state n = state 0

/-- With any integer as its seed, the generator is never at zero, draws the upper eight bits of its
state, and comes back to where it started.  Two generators are in the same state after some draws
exactly if they started in the same state. -/
theorem seeded_streams (seed : Int) :
    (∃ state, Streams seed state) ∧
      (∀ (other : Int) (n : Nat),
        (seeded (.ofInt seed)).after n = (seeded (.ofInt other)).after n ↔
          seeded (.ofInt seed) = seeded (.ofInt other)) ∧
      ∀ other : Int, seeded (.ofInt seed) = seeded (.ofInt other) ↔ start seed = start other := by
  obtain ⟨s, hs, hstart⟩ := seeded_ofInt seed
  have hne : s ≠ 0 := by
    rintro rfl
    exact absurd hstart (start_pos seed).ne
  refine ⟨⟨fun n => advance^[n] s, ?_⟩, ?_, ?_⟩
  · constructor
    case start_eq => exact hstart
    case after_eq =>
      intro n
      rw [hs, after_xorshift]
    case range =>
      intro n
      have hpos : (advance^[n] s).toNat ≠ 0 :=
        fun h => iterate_advance_ne_zero hne n (UInt32.toNat_inj.1 h)
      have hlt := (advance^[n] s).toNat_lt
      omega
    case byte_eq =>
      intro n
      rw [hs, after_xorshift, next_xorshift, Function.iterate_succ_apply']
    case recurs => exact exists_iterate_advance_eq s
  · intro other n
    rw [after_seeded_eq_iff seed other n, ← after_seeded_eq_iff seed other 0]
    rfl
  · intro other
    exact after_seeded_eq_iff seed other 0

end Chip8.RandomSource
