import Chip8.Proofs.Display.Sprite
import Mathlib.Data.Fintype.Fin
import Mathlib.Data.Fintype.Prod
import Mathlib.Logic.Equiv.Fin.Basic

/-!
# A display and its calls

A display only changes by calls that clear it or draw on it (`Display.Call`).  Its version counts
them (`version_after`), so a host that has seen a version has seen its picture, and need not draw
it again.

Wherever a sprite is drawn, no place that it inverts is past the last pixel; it may be left of the
first one, where nothing is stored and the call collides (`Display.StaysInside`).  All ways of
reading a display tell of the same pixels (`Display.ViewsAgree`).  The headline is `after_blank`,
which holds for any calls at any integer positions.
-/

namespace Chip8.Display

/-- What a host may do to a display. -/
inductive Call where
  | clear
  | draw (x y : Int) (rows : List Int)

/-- The display after a call. -/
def apply (d : Display) : Call → Display
  | .clear => d.clear
  | .draw x y rows => (d.draw x y rows).1

/-- The display after calls, one after the other. -/
def after (d : Display) (calls : List Call) : Display := calls.foldl apply d

/-! ### Versions -/

theorem version_apply (d : Display) (call : Call) : (d.apply call).version = d.version + 1 := by
  cases call with
  | clear => exact version_clear d
  | draw x y rows => exact version_draw d x y rows

/-- The version counts the calls. -/
theorem version_after (d : Display) (calls : List Call) :
    (d.after calls).version = d.version + calls.length := by
  induction calls generalizing d with
  | nil => rfl
  | cons call rest ih =>
    have hrest : ((d.apply call).after rest).version = (d.apply call).version + rest.length :=
      ih (d.apply call)
    rw [version_apply] at hrest
    show ((d.apply call).after rest).version = _
    rw [hrest, List.length_cons]
    omega

/-- Two moments of one history with the same version are the same moment. -/
theorem eq_of_version_after_eq {d : Display} {calls first second : List Call}
    (hfirst : first <+: calls) (hsecond : second <+: calls)
    (h : (d.after first).version = (d.after second).version) : first = second := by
  rw [version_after, version_after] at h
  have hlength : first.length = second.length := by omega
  exact (List.prefix_of_prefix_length_le hfirst hsecond (Nat.le_of_eq hlength)).eq_of_length hlength

/-! ### Drawing -/

/-- Drawing at a position stays inside the pixels: the places that it inverts are pixels or left
of the first one, and those that are no pixels store nothing and make the call collide. -/
structure StaysInside (d : Display) (x y : Int) (rows : List Int) : Prop where
  place_lt : ∀ p ∈ spriteCells x y rows, p < 2048
  pixels_eq : ∀ (k : Nat) (hk : k < 2048), (d.draw x y rows).1.pixels[k] =
    (d.pixels[k] ^^ decide ((spriteCells x y rows).count (k : Int) % 2 = 1))
  collision_of_neg : ∀ p ∈ spriteCells x y rows, p < 0 → (d.draw x y rows).2 = true

theorem staysInside (d : Display) (x y : Int) (rows : List Int) : d.StaysInside x y rows where
  place_lt _ hp := spriteCells_lt hp
  pixels_eq _ hk := pixels_draw d x y rows hk
  collision_of_neg p hp hneg := (collision_draw_iff d x y rows).2 (.inl ⟨p, hp, hneg⟩)

/-! ### Views -/

/-- The ways of reading a display tell of the same pixels, each of which is lit or not. -/
structure ViewsAgree (d : Display) : Prop where
  size_eq : d.toBytes.size = 2048
  mem_toBytes : ∀ b ∈ d.toBytes, b = 0 ∨ b = 1
  toBytes_iff : ∀ (x : Fin 64) (y : Fin 32),
    d.toBytes[64 * y.val + x.val]? = some 1 ↔ d.isSet x.val y.val = true
  toRows_iff : ∀ (x : Fin 64) (y : Fin 32),
    (d.toRows[y.val]?.bind fun row => row[x.val]?) = some true ↔ d.isSet x.val y.val = true
  isSet_of_off : ∀ x y : Int, ¬ ((0 ≤ x ∧ x < 64) ∧ 0 ≤ y ∧ y < 32) → d.isSet x y = false
  countLit_eq : d.countLit =
    (Finset.univ.filter fun p : Fin 64 × Fin 32 => d.isSet p.1.val p.2.val = true).card

theorem isSet_natCast (d : Display) (x : Fin 64) (y : Fin 32) :
    d.isSet x.val y.val = d.pixel x y := by
  have hon : ((0 : Int) ≤ x.val ∧ (x.val : Int) < 64) ∧ (0 : Int) ≤ y.val ∧ (y.val : Int) < 32 := by
    omega
  unfold isSet
  rw [dif_pos hon]
  rfl

theorem getElem?_toBytes (d : Display) (x : Fin 64) (y : Fin 32) :
    d.toBytes[64 * y.val + x.val]? = some (if d.pixel x y then 1 else 0) := by
  have hplace : y.val * 64 + x.val < 2048 := by omega
  rw [Nat.mul_comm, toBytes, Array.getElem?_map, Vector.getElem?_toArray,
    Vector.getElem?_eq_getElem hplace]
  rfl

theorem getElem?_toRows (d : Display) (x : Fin 64) (y : Fin 32) :
    (d.toRows[y.val]?.bind fun row => row[x.val]?) = some (d.pixel x y) := by
  simp [toRows]

/-- A place of the screen and its column and row. -/
def gridEquiv : Fin 64 × Fin 32 ≃ Fin 2048 := (Equiv.prodComm _ _).trans finProdFinEquiv

theorem val_gridEquiv (p : Fin 64 × Fin 32) : (gridEquiv p).val = p.2.val * 64 + p.1.val := by
  show p.1.val + 64 * p.2.val = _
  omega

/-- The count of lit pixels is the number of columns and rows where one is. -/
theorem countLit_eq_card (d : Display) :
    d.countLit = (Finset.univ.filter fun p : Fin 64 × Fin 32 => d.pixel p.1 p.2 = true).card := by
  have hplaces : (Finset.univ.filter fun k : Fin 2048 => d.pixels[k.val] = true).card =
      d.countLit :=
    Fin.card_filter_univ_eq_vector_get_eq_count true
      (⟨d.pixels.toList, Vector.length_toList⟩ : List.Vector Bool 2048)
  rw [← hplaces]
  symm
  refine Finset.card_equiv gridEquiv fun p => ?_
  rw [Finset.mem_filter, Finset.mem_filter]
  simp only [Finset.mem_univ, true_and, pixel, val_gridEquiv]

theorem viewsAgree (d : Display) : d.ViewsAgree where
  size_eq := d.size_toBytes
  mem_toBytes _ hb := eq_zero_or_one_of_mem_toBytes hb
  toBytes_iff x y := by
    rw [getElem?_toBytes, isSet_natCast]
    cases d.pixel x y <;> decide
  toRows_iff x y := by
    rw [getElem?_toRows, isSet_natCast, Option.some.injEq]
  isSet_of_off x y hoff := dif_neg hoff
  countLit_eq := by
    simp only [isSet_natCast]
    exact countLit_eq_card d

/-! ### Histories -/

/-- After any calls on a new display, its version is their number, and at two moments with the same
version it had the same pixels.  Its views agree, and drawing on it once more stays inside the
pixels, at whatever position and with whatever rows. -/
theorem after_blank (calls : List Call) :
    let d := blank.after calls
    d.version = calls.length ∧
      (∀ first second, first <+: calls → second <+: calls →
        (blank.after first).version = (blank.after second).version →
          (blank.after first).pixels = (blank.after second).pixels) ∧
      (∀ x y rows, d.StaysInside x y rows) ∧
      d.ViewsAgree := by
  intro d
  refine ⟨?_, ?_, d.staysInside, d.viewsAgree⟩
  · rw [version_after]
    exact Nat.zero_add _
  · intro first second hfirst hsecond hversion
    rw [eq_of_version_after_eq hfirst hsecond hversion]

/-- The left column of this sprite is left of the first pixel, and the right one is on it. -/
example : (blank.draw (-1) 0 [0xC0]).2 = true ∧ (blank.draw (-1) 0 [0xC0]).1.isSet 0 0 = true := by
  decide +kernel

end Chip8.Display
