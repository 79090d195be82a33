import Chip8.Fingerprint
import Chip8.Number.Numeral
import Chip8.Proofs.Display.History
import Mathlib.Logic.ExistsUnique

/-!
# A fingerprint shows every single change

To mix in a byte is to exclude it from the hash bit by bit and to multiply by an odd number.  Both
can be undone, so with the byte fixed different hashes stay different (`absorb_left_injective`), and
with the hash fixed different bytes give different hashes (`absorb_right_injective`).

Two lists that differ at one position have the same hash up to there, different ones after it, and
all that follows keeps them apart (`foldl_absorb_ne`).  The text of a hash is eight digits that
denote it (`denotes_text`), so texts differ where hashes do.  The headline is
`ofInts_detects_change`.
-/

namespace Chip8.Fingerprint

/-! ### One more byte -/

theorem mul_injective : Function.Injective fun hash : UInt32 => hash * 0x01000193 := by
  have hinverse (hash : UInt32) : hash * 0x01000193 * 0x359C449B = hash := by
    rw [UInt32.mul_assoc, show (0x01000193 : UInt32) * 0x359C449B = 1 by decide, UInt32.mul_one]
  intro hash hash' h
  rw [← hinverse hash, ← hinverse hash']
  exact congrArg (· * 0x359C449B) h

/-- Different hashes stay different. -/
theorem absorb_left_injective (b : UInt8) : Function.Injective fun hash => absorb hash b := by
  intro hash hash' h
  exact (UInt32.xor_left_inj b.toUInt32).1 (mul_injective h)

/-- Different bytes make hashes different. -/
theorem absorb_right_injective (hash : UInt32) : Function.Injective (absorb hash) := by
  intro b b' h
  exact UInt8.toUInt32_inj.1 ((UInt32.xor_right_inj hash).1 (mul_injective h))

theorem toNat_absorb (hash : UInt32) (b : UInt8) :
    (absorb hash b).toNat = (hash.toNat ^^^ b.toNat) * 0x01000193 % 2 ^ 32 := by
  rw [absorb, UInt32.toNat_mul, UInt32.toNat_xor, UInt8.toNat_toUInt32]
  rfl

/-! ### Many bytes -/

theorem foldl_absorb_injective (bytes : List UInt8) :
    Function.Injective fun hash => bytes.foldl absorb hash := by
  induction bytes with
  | nil => exact Function.injective_id
  | cons b rest ih => exact ih.comp (absorb_left_injective b)

/-- Bytes that differ at exactly one position have different hashes. -/
theorem foldl_absorb_ne {bytes others : List UInt8} (hlength : bytes.length = others.length)
    (h : ∃! i : Nat, bytes[i]? ≠ others[i]?) (hash : UInt32) :
    bytes.foldl absorb hash ≠ others.foldl absorb hash := by
  obtain ⟨i, hi, hunique⟩ := h
  induction bytes generalizing others hash i with
  | nil =>
    obtain rfl := List.eq_nil_of_length_eq_zero hlength.symm
    exact absurd rfl hi
  | cons b bytes ih =>
    obtain ⟨c, others, rfl⟩ := List.exists_cons_of_length_eq_add_one hlength.symm
    cases i with
    | zero =>
      -- the difference is here, so what follows is the same
      have hrest : bytes = others := by
        apply List.ext_getElem?
        intro j
        by_contra hj
        cases hunique (j + 1) hj
      have hbc : b ≠ c := by simpa using hi
      subst hrest
      exact (foldl_absorb_injective bytes).ne ((absorb_right_injective hash).ne hbc)
    | succ i =>
      have hbc : b = c := by
        by_contra hne
        cases hunique 0 (by simpa using hne)
      subst hbc
      refine ih (Nat.succ.inj hlength) (absorb hash b) i (by simpa using hi) ?_
      intro j hj
      exact Nat.succ.inj (hunique (j + 1) (by simpa using hj))

/-! ### Integers -/

/-- The hash after more integers. -/
def extend (hash : UInt32) (values : List Int) : UInt32 :=
  (values.map UInt8.ofInt).foldl absorb hash

theorem ofInts_eq (values : List Int) : ofInts values = extend basis values := by
  rw [ofInts, ofBytes, List.foldl_toArray, extend]

/-- The hash of the whole is the hash of the first part, extended by the second. -/
theorem ofInts_append (values more : List Int) :
    ofInts (values ++ more) = extend (ofInts values) more := by
  simp only [ofInts_eq, extend, List.map_append, List.foldl_append]

theorem ofInt_eq_iff (x y : Int) : UInt8.ofInt x = UInt8.ofInt y ↔ x % 256 = y % 256 := by
  rw [← UInt8.toNat_inj, Number.toNat_byte, Number.toNat_byte]
  omega

theorem toNat_extend_singleton (hash : UInt32) (value : Int) :
    (extend hash [value]).toNat =
      (hash.toNat ^^^ (value % 256).toNat) * 0x01000193 % 2 ^ 32 := by
  rw [← Number.toNat_byte]
  exact toNat_absorb hash (UInt8.ofInt value)

/-- The lists have the same length, and modulo 256 they differ at exactly one position. -/
def DifferOnce (values others : List Int) : Prop :=
  values.length = others.length ∧
    ∃! i : Nat, values[i]?.map (· % 256) ≠ others[i]?.map (· % 256)

theorem getElem?_map_ofInt_eq_iff (values others : List Int) (i : Nat) :
    (values.map UInt8.ofInt)[i]? = (others.map UInt8.ofInt)[i]? ↔
      values[i]?.map (· % 256) = others[i]?.map (· % 256) := by
  rw [List.getElem?_map, List.getElem?_map]
  cases values[i]? <;> cases others[i]? <;> simp [ofInt_eq_iff]

theorem ofInts_ne {values others : List Int} (h : DifferOnce values others) :
    ofInts values ≠ ofInts others := by
  rw [ofInts_eq, ofInts_eq]
  refine foldl_absorb_ne ?_ ?_ basis
  · rw [List.length_map, List.length_map, h.1]
  · simpa only [ne_eq, getElem?_map_ofInt_eq_iff] using h.2

/-! ### The text of a hash -/

/-- The digits of base sixteen in lower case. -/
def lowerDigits : List Char := "0123456789abcdef".toList

/-- The text denotes a number by eight digits of base sixteen in lower case. -/
structure Denotes (s : String) (n : Nat) : Prop where
  length_eq : s.toList.length = 8
  mem_lowerDigits : ∀ c ∈ s.toList, c ∈ lowerDigits
  value_eq : Numeral.digitsValue 16 s.toList = n

theorem mem_lowerDigits_of_mem_toDigits (n : Nat) : ∀ c ∈ Nat.toDigits 16 n, c ∈ lowerDigits := by
  have hdigit : ∀ d < 16, Nat.digitChar d ∈ lowerDigits := by decide
  induction n using Nat.base_induction 16 (by decide) with
  | single d hd => simpa [Nat.toDigits_of_lt_base hd] using hdigit d hd
  | digit m d hd hm ih =>
    rw [← Nat.toDigits_append_toDigits (by decide) hm hd, Nat.toDigits_of_lt_base hd]
    intro c hc
    rcases List.mem_append.1 hc with hc | hc
    · exact ih c hc
    · rw [List.mem_singleton.1 hc]
      exact hdigit d hd

theorem denotes_text (hash : UInt32) : Denotes (text hash) hash.toNat := by
  have hlength : (Nat.toDigits 16 hash.toNat).length ≤ 8 :=
    (Nat.length_toDigits_le_iff (by decide) (by decide)).2 hash.toNat_lt
  constructor
  case length_eq =>
    rw [text, String.toList_ofList, Text.length_padZeros, Nat.max_eq_left hlength]
  case mem_lowerDigits =>
    intro c hc
    rw [text, String.toList_ofList, Text.padZeros] at hc
    rcases List.mem_append.1 hc with hzero | hdigit
    · rw [List.eq_of_mem_replicate hzero]
      decide
    · exact mem_lowerDigits_of_mem_toDigits hash.toNat c hdigit
  case value_eq =>
    rw [text, String.toList_ofList, Numeral.digitsValue_padZeros,
      Numeral.digitsValue_toDigits (by decide) (by decide)]

theorem text_injective : Function.Injective text := by
  intro hash hash' h
  apply UInt32.toNat_inj.1
  rw [← (denotes_text hash).value_eq, h, (denotes_text hash').value_eq]

/-! ### Displays -/

theorem getElem?_toBytes_ne_iff (d e : Display) (p : Fin 64 × Fin 32) :
    d.toBytes.toList[64 * p.2.val + p.1.val]? ≠ e.toBytes.toList[64 * p.2.val + p.1.val]? ↔
      d.pixel p.1 p.2 ≠ e.pixel p.1 p.2 := by
  rw [Array.getElem?_toList, Array.getElem?_toList, d.getElem?_toBytes, e.getElem?_toBytes]
  cases d.pixel p.1 p.2 <;> cases e.pixel p.1 p.2 <;> decide

/-- Displays that differ in exactly one pixel have different fingerprints. -/
theorem fingerprint_ne {d e : Display}
    (h : ∃! p : Fin 64 × Fin 32, d.pixel p.1 p.2 ≠ e.pixel p.1 p.2) :
    d.fingerprint ≠ e.fingerprint := by
  obtain ⟨p, hp, hunique⟩ := h
  apply text_injective.ne
  rw [ofBytes, ofBytes, ← Array.foldl_toList, ← Array.foldl_toList]
  refine foldl_absorb_ne (by simp) ?_ basis
  refine ⟨64 * p.2.val + p.1.val, (getElem?_toBytes_ne_iff d e p).2 hp, ?_⟩
  intro i hi
  have hlt : i < 2048 := by
    by_contra hge
    exact hi (by simp [Nat.le_of_not_lt hge])
  -- the place of a byte that differs is in the column and row of a pixel that differs
  have hplace : 64 * (i / 64) + i % 64 = i := Nat.div_add_mod i 64
  have hpixel := (getElem?_toBytes_ne_iff d e (⟨i % 64, by omega⟩, ⟨i / 64, by omega⟩)).1
    (by rwa [hplace])
  rw [← hunique _ hpixel]
  exact hplace.symm

/-! ### All together -/

/-- Lists of integers that differ at a single position modulo 256 have different hashes and
different texts, and so have displays that differ in a single pixel.  The hash of a list goes on
from the hash of any first part of it, one integer at a time, and its text denotes it. -/
theorem ofInts_detects_change :
    (∀ values others : List Int, DifferOnce values others →
        ofInts values ≠ ofInts others ∧ text (ofInts values) ≠ text (ofInts others)) ∧
      (∀ d e : Display, (∃! p : Fin 64 × Fin 32, d.pixel p.1 p.2 ≠ e.pixel p.1 p.2) →
        d.fingerprint ≠ e.fingerprint) ∧
      (∀ values more : List Int, ofInts (values ++ more) = extend (ofInts values) more) ∧
      (∀ (hash : UInt32) (value : Int), (extend hash [value]).toNat =
        (hash.toNat ^^^ (value % 256).toNat) * 0x01000193 % 2 ^ 32) ∧
      ∀ values : List Int, (ofInts values).toNat < 2 ^ 32 ∧
        Denotes (text (ofInts values)) (ofInts values).toNat := by
  refine ⟨?_, fun _ _ => fingerprint_ne, ofInts_append, toNat_extend_singleton, ?_⟩
  · intro values others h
    have hne := ofInts_ne h
    exact ⟨hne, text_injective.ne hne⟩
  · intro values
    exact ⟨(ofInts values).toNat_lt, denotes_text (ofInts values)⟩

/-- The display with a single pixel lit, in column 13 and row 1. -/
def lone : Display := ⟨Display.blank.pixels.set 77 true, 1⟩

/-- Of the two lists, the last integers are the same modulo 256 and the ones before are not.  Of the
two displays, one is blank and the other has a single pixel lit. -/
theorem ofInts_detects_change_middle :
    DifferOnce [7, 255, -1] [7, 254, 511] ∧ ofInts [7, 255, -1] ≠ ofInts [7, 254, 511] ∧
      (∃! p : Fin 64 × Fin 32, Display.blank.pixel p.1 p.2 ≠ lone.pixel p.1 p.2) ∧
      Display.blank.fingerprint ≠ lone.fingerprint := by
  have hlists : DifferOnce [7, 255, -1] [7, 254, 511] := by
    refine ⟨rfl, 1, by decide, ?_⟩
    intro i hi
    match i with
    | 0 | 2 => exact absurd rfl hi
    | 1 => rfl
    | _ + 3 => exact absurd rfl hi
  have hpixel (p : Fin 64 × Fin 32) :
      Display.blank.pixel p.1 p.2 ≠ lone.pixel p.1 p.2 ↔ 77 = p.2.val * 64 + p.1.val := by
    simp [Display.pixel, lone, Display.blank, Vector.getElem_set]
  have hdisplays : ∃! p : Fin 64 × Fin 32, Display.blank.pixel p.1 p.2 ≠ lone.pixel p.1 p.2 := by
    refine ⟨(13, 1), (hpixel _).2 rfl, ?_⟩
    rintro ⟨x, y⟩ hp
    have hplace : 77 = y.val * 64 + x.val := (hpixel (x, y)).1 hp
    have hx : x.val = 13 := by omega
    have hy : y.val = 1 := by omega
    exact Prod.ext (Fin.ext hx) (Fin.ext hy)
  obtain ⟨hdetects, hdisplay, -⟩ := ofInts_detects_change
  exact ⟨hlists, (hdetects _ _ hlists).1, hdisplays, hdisplay _ _ hdisplays⟩

end Chip8.Fingerprint
