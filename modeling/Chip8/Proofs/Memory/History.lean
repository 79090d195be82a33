import Chip8.Proofs.Memory
import Mathlib.Data.List.Induction
import Mathlib.Data.Rat.Cast.Order

/-!
# A memory and its calls

A host reads and writes a memory by calls (`Memory.Call`), with whatever number as an address.  A
call needs a range of bytes (`Call.range?`) and fails exactly if that range is not inside the
memory (`IsOutside`); then it changes nothing.

What a call stores at a position can be told without a memory (`Call.stored?`), and so can what a
list of calls has stored there last (`lastStored?`): the calls since the memory was last cleared
are searched backwards.  A byte of a memory is always that value modulo 256 (`byteAt_after`), from
which the headline `after_zeroed` reads off what the calls that read answer.
-/

namespace Chip8.Memory

/-! ### Calls -/

/-- What a host may ask of a memory. -/
inductive Call where
  | write8 (addr : Number) (value : Int)
  | load (addr : Number) (values : List Int)
  | clear
  | read8 (addr : Number)
  | read16 (addr : Number)
  | slice (addr : Number) (len : Nat)

/-- The memory after a call, or the fault of the call. -/
def attempt (m : Memory) : Call → Except Fault Memory
  | .write8 addr value => m.write8 addr value
  | .load addr values => m.load addr (values.map UInt8.ofInt)
  | .clear => .ok m.clear
  | .read8 addr => (m.read8 addr).map fun _ => m
  | .read16 addr => (m.read16 addr).map fun _ => m
  | .slice addr len => (m.slice addr len).map fun _ => m

/-- The memory after a call, whether it fails or not. -/
def apply (m : Memory) (call : Call) : Memory :=
  match m.attempt call with
  | .ok m' => m'
  | .error _ => m

/-- The memory after calls, one after the other. -/
def after (m : Memory) (calls : List Call) : Memory := calls.foldl apply m

namespace Call

/-- The address and the length of the bytes that a call needs. -/
def range? : Call → Option (Number × Nat)
  | write8 addr _ | read8 addr => some (addr, 1)
  | read16 addr => some (addr, 2)
  | load addr values => some (addr, values.length)
  | slice addr len => some (addr, len)
  | clear => none

/-- The values that a call stores from its address on. -/
def values : Call → List Int
  | write8 _ value => [value]
  | load _ values => values
  | _ => []

def isClear : Call → Bool
  | clear => true
  | _ => false

end Call

/-- A range is not inside so many bytes: its address is no integer, or is negative, or it ends
beyond them. -/
def IsOutside (size : Nat) (addr : Number) (len : Nat) : Prop :=
  addr.toInt? = none ∨ addr.value < 0 ∨ (size : Rat) < addr.value + len

instance (size : Nat) (addr : Number) (len : Nat) : Decidable (IsOutside size addr len) :=
  inferInstanceAs (Decidable (_ ∨ _ ∨ _))

/-- The value that a call stores at a position, if its range is inside and covers the position. -/
def Call.stored? (size position : Nat) (call : Call) : Option Int :=
  call.range?.bind fun (addr, len) =>
    let first := addr.floor.toNat
    if IsOutside size addr len ∨ position < first then none
    else call.values[position - first]?

/-- The value that calls have stored at a position last, since the memory was last cleared. -/
def lastStored? (size position : Nat) (calls : List Call) : Option Int :=
  (calls.reverse.takeWhile fun call => !call.isClear).findSome? (Call.stored? size position)

/-! ### Granted and refused -/

/-- A range is inside exactly if its address is a natural number and it ends inside. -/
theorem not_isOutside_iff {size len : Nat} {addr : Number} :
    ¬ IsOutside size addr len ↔ ∃ a : Nat, addr.toInt? = some (a : Int) ∧ a + len ≤ size := by
  unfold IsOutside
  cases haddr : addr.toInt? with
  | none => simp
  | some k =>
    have hends : (size : Rat) < (k : Rat) + (len : Rat) ↔ (size : Int) < k + len := by
      exact_mod_cast Iff.rfl
    rw [Number.value_of_toInt? haddr, Rat.intCast_neg_iff, hends]
    simp only [reduceCtorEq, false_or, Option.some.injEq, not_or]
    constructor
    · rintro ⟨hneg, hle⟩
      exact ⟨k.toNat, by omega, by omega⟩
    · rintro ⟨a, rfl, hle⟩
      omega

/-- In a memory of so many bytes, an access is granted at its address or refused. -/
theorem locate_cases {m : Memory} {size : Nat} (hsize : m.size = .ofInt size) (addr : Number)
    (len : Nat) :
    (∃ a : Nat, addr.toInt? = some (a : Int) ∧ a + len ≤ size ∧ m.locate addr len = .ok a) ∨
      IsOutside size addr len ∧
        m.locate addr len = .error (accessFault (.ofInt size) addr (.ofInt len)) := by
  by_cases houtside : IsOutside size addr len
  · refine .inr ⟨houtside, ?_⟩
    cases hlocate : m.locate addr len with
    | error f => rw [eq_accessFault_of_locate hlocate, hsize]
    | ok a =>
      obtain ⟨haddr, hle⟩ := (locate_eq_ok_iff _ _ _ _).1 hlocate
      rw [reach_of_size hsize] at hle
      exact absurd houtside (not_isOutside_iff.2 ⟨a, haddr, by omega⟩)
  · obtain ⟨a, haddr, hle⟩ := not_isOutside_iff.1 houtside
    refine .inl ⟨a, haddr, hle, (locate_eq_ok_iff _ _ _ _).2 ⟨haddr, ?_⟩⟩
    rw [reach_of_size hsize]
    omega

/-- A call is an access to its range that stores its values. -/
theorem attempt_eq (m : Memory) {call : Call} {addr : Number} {len : Nat}
    (h : call.range? = some (addr, len)) :
    m.attempt call =
      (m.locate addr len).map fun first => m.store first (call.values.map UInt8.ofInt) := by
  have hread {α : Type} (answer : Nat → α) :
      ((m.locate addr len).map answer).map (fun _ => m) =
        (m.locate addr len).map fun first => m.store first [] := by
    cases m.locate addr len <;> rfl
  cases call with
  | clear => cases h
  | write8 _ value =>
    cases h
    rfl
  | load _ values =>
    cases h
    rw [attempt, load, List.length_map]
    rfl
  | read8 | read16 | slice =>
    cases h
    exact hread _

/-- A call does not store more bytes than it needs. -/
theorem length_values_le {call : Call} {addr : Number} {len : Nat}
    (h : call.range? = some (addr, len)) : call.values.length ≤ len := by
  cases call <;> cases h <;> simp [Call.values]

theorem range?_eq_none_iff {call : Call} : call.range? = none ↔ call = .clear := by
  cases call <;> simp [Call.range?]

/-- What a call does, by cases: it clears, it stores its values at its address, or it is refused
and does nothing. -/
inductive CallCase (m : Memory) (size : Nat) (call : Call) : Prop
  | clears (hcall : call = .clear) (hattempt : m.attempt call = .ok m.clear)
  | stores (addr : Number) (len a : Nat) (hrange : call.range? = some (addr, len))
      (haddr : addr.toInt? = some (a : Int)) (hinside : a + len ≤ size)
      (hattempt : m.attempt call = .ok (m.store a (call.values.map UInt8.ofInt)))
  | refused (addr : Number) (len : Nat) (hrange : call.range? = some (addr, len))
      (houtside : IsOutside size addr len)
      (hattempt : m.attempt call = .error (accessFault (.ofInt size) addr (.ofInt len)))

theorem attempt_cases {m : Memory} {size : Nat} (hsize : m.size = .ofInt size) (call : Call) :
    CallCase m size call := by
  cases hrange : call.range? with
  | none =>
    obtain rfl := range?_eq_none_iff.1 hrange
    exact .clears rfl rfl
  | some range =>
    obtain ⟨addr, len⟩ := range
    have hattempt := m.attempt_eq hrange
    rcases locate_cases hsize addr len with ⟨a, haddr, hinside, hlocate⟩ | ⟨houtside, hlocate⟩
    · rw [hlocate] at hattempt
      exact .stores addr len a hrange haddr hinside hattempt
    · rw [hlocate] at hattempt
      exact .refused addr len hrange houtside hattempt

/-! ### Sizes -/

/-- The memory has so many bytes. -/
structure HasSize (m : Memory) (size : Nat) : Prop where
  size_eq : m.size = .ofInt size
  count_eq : m.bytes.size = size

theorem hasSize_zeroed (size : Nat) : (zeroed size).HasSize size :=
  ⟨size_zeroed size, size_bytes_zeroed size⟩

theorem HasSize.apply {m : Memory} {size : Nat} (hm : m.HasSize size) (call : Call) :
    (m.apply call).HasSize size := by
  cases attempt_cases hm.size_eq call with
  | clears _ hattempt =>
    rw [Memory.apply, hattempt]
    exact ⟨hm.size_eq, (size_bytes_clear m).trans hm.count_eq⟩
  | stores addr len a _ _ _ hattempt =>
    rw [Memory.apply, hattempt]
    exact ⟨(size_store m a _).trans hm.size_eq, (size_bytes_store m a _).trans hm.count_eq⟩
  | refused addr len _ _ hattempt =>
    rw [Memory.apply, hattempt]
    exact hm

theorem HasSize.after {m : Memory} {size : Nat} (hm : m.HasSize size) (calls : List Call) :
    (m.after calls).HasSize size := by
  induction calls generalizing m with
  | nil => exact hm
  | cons call rest ih => exact ih (hm.apply call)

/-! ### What a call does to a byte -/

section Stored

variable {size : Nat} {call : Call} {addr : Number} {len : Nat}
  (hrange : call.range? = some (addr, len))

include hrange

theorem stored?_of_inside {first : Nat} (haddr : addr.toInt? = some (first : Int))
    (hinside : first + len ≤ size) (a : Nat) :
    call.stored? size a = if a < first then none else call.values[a - first]? := by
  have hnot : ¬ IsOutside size addr len := not_isOutside_iff.2 ⟨first, haddr, hinside⟩
  have hfloor : addr.floor.toNat = first := by
    rw [Number.floor, Number.value_of_toInt? haddr, Rat.floor_intCast, Int.toNat_natCast]
  simp only [Call.stored?, hrange, Option.bind_some, hfloor, hnot, false_or]

theorem stored?_of_outside (houtside : IsOutside size addr len) (a : Nat) :
    call.stored? size a = none := by
  simp only [Call.stored?, hrange, Option.bind_some, houtside, true_or, if_true]

theorem isClear_eq_false : call.isClear = false := by
  cases call with
  | clear => cases hrange
  | _ => rfl

end Stored

/-- A byte after a call is what the call stored there, and else what it was. -/
theorem byteAt_apply {m : Memory} {size : Nat} (hm : m.HasSize size) (call : Call) (a : Nat) :
    (m.apply call).byteAt a =
      if call.isClear then 0 else (call.stored? size a).elim (m.byteAt a) UInt8.ofInt := by
  cases attempt_cases hm.size_eq call with
  | clears hcall hattempt =>
    rw [apply, hattempt, hcall]
    exact byteAt_clear m a
  | stores addr len first hrange haddr hinside hattempt =>
    have hlength := length_values_le hrange
    have hfits : first + (call.values.map UInt8.ofInt).length ≤ m.bytes.size := by
      rw [List.length_map, hm.count_eq]
      omega
    rw [apply, hattempt, isClear_eq_false hrange, stored?_of_inside hrange haddr hinside]
    refine (byteAt_store hfits a).trans ?_
    rw [List.length_map]
    by_cases hbefore : a < first
    · rw [if_neg (by omega), if_pos hbefore]
      rfl
    · rw [if_neg hbefore]
      by_cases hcovered : a < first + call.values.length
      · have hlt : a - first < call.values.length := by omega
        rw [if_pos ⟨Nat.le_of_not_lt hbefore, hcovered⟩, List.getElem?_eq_getElem hlt]
        simp [hlt]
      · rw [if_neg (by omega), List.getElem?_eq_none (by omega)]
        rfl
  | refused addr len hrange houtside hattempt =>
    rw [apply, hattempt, isClear_eq_false hrange, stored?_of_outside hrange houtside]
    rfl

/-! ### What calls have stored -/

theorem lastStored?_concat (size a : Nat) (calls : List Call) (call : Call) :
    lastStored? size a (calls ++ [call]) =
      if call.isClear then none else (call.stored? size a).or (lastStored? size a calls) := by
  rw [lastStored?, List.reverse_concat, List.takeWhile_cons]
  cases call.isClear with
  | true => rfl
  | false =>
    simp only [Bool.not_false, if_true, List.findSome?_cons]
    cases call.stored? size a <;> rfl

theorem after_concat (m : Memory) (calls : List Call) (call : Call) :
    m.after (calls ++ [call]) = (m.after calls).apply call :=
  List.foldl_append

theorem byteAt_zeroed (size a : Nat) : (zeroed size).byteAt a = 0 := by
  have hclear : (zeroed size).clear = zeroed size := by simp [zeroed, clear]
  rw [← hclear, byteAt_clear]

/-- A byte is what was stored there last since the memory was last cleared, and else zero. -/
theorem byteAt_after (size : Nat) (calls : List Call) (a : Nat) :
    ((zeroed size).after calls).byteAt a = UInt8.ofInt ((lastStored? size a calls).getD 0) := by
  induction calls using List.reverseRecOn with
  | nil => exact byteAt_zeroed size a
  | append_singleton calls call ih =>
    have hm := (hasSize_zeroed size).after calls
    rw [after_concat, byteAt_apply hm, ih, lastStored?_concat]
    cases call.isClear with
    | true => rfl
    | false => cases call.stored? size a <;> rfl

/-- A load that does not fit stores nothing, so the value before it counts. -/
example : lastStored? 4 2 [.load (.ofInt 1) [7, 300, 9], .write8 (.ofInt 2) (-1),
    .load (.ofInt 2) [1, 2, 3]] = some (-1) := by
  decide +kernel

/-! ### Reading -/

section Reading

variable {m : Memory} {size : Nat} (hm : m.HasSize size)

include hm

/-- An access that is granted is at a natural number, and its range is inside. -/
theorem exists_of_map_locate {α : Type} {addr : Number} {len : Nat} {answer : Nat → α} {r : α}
    (h : (m.locate addr len).map answer = .ok r) :
    ∃ a : Nat, addr.toInt? = some (a : Int) ∧ a + len ≤ size ∧ r = answer a := by
  rcases locate_cases hm.size_eq addr len with ⟨a, haddr, hinside, hlocate⟩ | ⟨-, hlocate⟩
  · rw [hlocate] at h
    exact ⟨a, haddr, hinside, (Except.ok.inj h).symm⟩
  · rw [hlocate] at h
    cases h

theorem read8_natCast {a : Nat} (h : a < size) : m.read8 (.ofInt a) = .ok (m.byteAt a) := by
  have hlocate := locate_natCast hm.size_eq a 1
  rw [if_pos (Nat.succ_le_of_lt h)] at hlocate
  exact congrArg (Except.map m.byteAt) hlocate

/-- A word is two bytes, the higher one first. -/
theorem read8_of_read16 {addr : Number} {w : Nat} (h : m.read16 addr = .ok w) :
    ∃ (a : Nat) (high low : UInt8), addr.toInt? = some (a : Int) ∧
      m.read8 (.ofInt a) = .ok high ∧ m.read8 (.ofInt (a + 1 : Nat)) = .ok low ∧
      w = 256 * high.toNat + low.toNat := by
  have hword : (m.locate addr (2 : Nat)).map m.wordAt = .ok w := h
  obtain ⟨a, haddr, hinside, rfl⟩ := exists_of_map_locate hm hword
  refine ⟨a, m.byteAt a, m.byteAt (a + 1), haddr, ?_, ?_, ?_⟩
  · exact read8_natCast hm (by omega)
  · exact read8_natCast hm (by omega)
  · rw [wordAt, Nat.mul_comm]

/-- A range is its bytes, one after the other. -/
theorem read8_of_slice {addr : Number} {len : Nat} {bytes : List UInt8}
    (h : m.slice addr len = .ok bytes) :
    ∃ a : Nat, addr.toInt? = some (a : Int) ∧
      (List.range len).map (fun k => m.read8 (.ofInt (a + k : Nat))) = bytes.map .ok := by
  obtain ⟨a, haddr, hinside, rfl⟩ := exists_of_map_locate hm h
  have hfits : a + len ≤ m.bytes.size := by rwa [hm.count_eq]
  refine ⟨a, haddr, ?_⟩
  rw [bytesFrom_eq hfits, List.map_map]
  apply List.map_congr_left
  intro k hk
  have hlt := List.mem_range.1 hk
  exact read8_natCast hm (by omega)

/-- A range that is stored where it came from changes nothing. -/
theorem load_of_slice {addr : Number} {len : Nat} {bytes : List UInt8}
    (h : m.slice addr len = .ok bytes) : m.load addr bytes = .ok m := by
  obtain ⟨a, haddr, hinside, rfl⟩ := exists_of_map_locate hm h
  have hfits : a + len ≤ m.bytes.size := by rwa [hm.count_eq]
  have hlength : (m.bytesFrom a len).length = len := by simp [bytesFrom_eq hfits]
  have hlocate : m.locate addr (m.bytesFrom a len).length = .ok a := by
    rw [hlength, locate_eq_ok_iff, reach_of_size hm.size_eq]
    exact ⟨haddr, by omega⟩
  have hsame : m.store a (m.bytesFrom a len) = m := by
    refine store_eq_self (by omega) fun k hk => ?_
    rw [hlength] at hk
    simp [bytesFrom_eq hfits, hk]
  rw [load, hlocate]
  exact congrArg Except.ok hsame

end Reading

/-! ### Histories -/

/-- The fault of a call is that of its range, which is outside. -/
theorem attempt_eq_error_iff {m : Memory} {size : Nat} (hsize : m.size = .ofInt size) (call : Call)
    (f : Fault) :
    m.attempt call = .error f ↔
      ∃ addr len, call.range? = some (addr, len) ∧ IsOutside size addr len ∧
        f = accessFault (.ofInt size) addr (.ofInt len) := by
  constructor
  · intro h
    cases attempt_cases hsize call with
    | clears _ hattempt =>
      rw [hattempt] at h
      cases h
    | stores _ _ _ _ _ _ hattempt =>
      rw [hattempt] at h
      cases h
    | refused addr len hrange houtside hattempt =>
      rw [hattempt] at h
      exact ⟨addr, len, hrange, houtside, (Except.error.inj h).symm⟩
  · rintro ⟨addr, len, hrange, houtside, rfl⟩
    rcases locate_cases hsize addr len with ⟨a, haddr, hinside, -⟩ | ⟨-, hlocate⟩
    · exact absurd houtside (not_isOutside_iff.2 ⟨a, haddr, hinside⟩)
    · rw [attempt_eq m hrange, hlocate]
      rfl

/-- A memory that is asked for with a natural number as its size holds zeros, on every host. -/
theorem eq_zeroed_of_ofSize {host : Storage.Host} {size : Nat} {m : Memory}
    (h : ofSize host (.ofInt size) = .ok m) : m = zeroed size := by
  unfold ofSize at h
  by_cases hcount : size ≤ Storage.countable
  · rw [Storage.reserve_ofInt host hcount] at h
    split_ifs at h
    · cases h
      simp [zeroed]
    · cases h
  · have hnone : Storage.isCount (.ofInt size) = false := by
      rw [Storage.isCount_ofInt, decide_eq_false hcount]
    rw [Storage.reserve_of_not_isCount host hnone] at h
    cases h

/-- What can be told of a memory of so many bytes from the calls that were made on it. -/
structure Remembers (m : Memory) (size : Nat) (calls : List Call) : Prop where
  /-- A call fails exactly if it needs a range that is outside. -/
  fails_iff : ∀ call f, m.attempt call = .error f ↔
    ∃ addr len, call.range? = some (addr, len) ∧ IsOutside size addr len ∧
      f = accessFault (.ofInt size) addr (.ofInt len)
  /-- A call that fails tells its address, and changes nothing. -/
  of_fails : ∀ call f, m.attempt call = .error f →
    f.code = .outOfBounds ∧
      (∃ addr len, call.range? = some (addr, len) ∧ f.context = { addr? := some addr }) ∧
      m.apply call = m
  /-- A byte is the value that was stored there last, modulo 256, and zero if none was. -/
  read8_eq : ∀ addr b, m.read8 addr = .ok b →
    ∃ a : Nat, addr.toInt? = some (a : Int) ∧
      (b.toNat : Int) = (lastStored? size a calls).getD 0 % 256
  /-- A word is two bytes, the higher one first. -/
  read16_eq : ∀ addr w, m.read16 addr = .ok w →
    ∃ (a : Nat) (high low : UInt8), addr.toInt? = some (a : Int) ∧
      m.read8 (.ofInt a) = .ok high ∧ m.read8 (.ofInt (a + 1 : Nat)) = .ok low ∧
      w = 256 * high.toNat + low.toNat
  /-- A range is its bytes, one after the other. -/
  slice_eq : ∀ addr (len : Nat) bytes, m.slice addr len = .ok bytes →
    ∃ a : Nat, addr.toInt? = some (a : Int) ∧
      (List.range len).map (fun k => m.read8 (.ofInt (a + k : Nat))) = bytes.map .ok
  /-- A range that is stored where it came from changes nothing. -/
  load_slice : ∀ addr (len : Nat) bytes, m.slice addr len = .ok bytes → m.load addr bytes = .ok m

/-- After any calls on a new memory, of any size, the next call fails exactly if its range is not
inside, and the bytes are those that were stored last. -/
theorem after_zeroed (size : Nat) (calls : List Call) :
    (∀ host m, ofSize host (.ofInt size) = .ok m → m = zeroed size) ∧
      ((zeroed size).after calls).Remembers size calls := by
  have hm := (hasSize_zeroed size).after calls
  refine ⟨fun host m => eq_zeroed_of_ofSize, ?_⟩
  constructor
  case fails_iff => exact attempt_eq_error_iff hm.size_eq
  case of_fails =>
    intro call f hf
    obtain ⟨addr, len, hrange, -, rfl⟩ := (attempt_eq_error_iff hm.size_eq call f).1 hf
    refine ⟨rfl, ⟨addr, len, hrange, rfl⟩, ?_⟩
    rw [apply, hf]
  case read8_eq =>
    intro addr b hb
    have hbyte : (Memory.locate _ addr (1 : Nat)).map (byteAt _) = .ok b := hb
    obtain ⟨a, haddr, -, rfl⟩ := exists_of_map_locate hm hbyte
    refine ⟨a, haddr, ?_⟩
    rw [byteAt_after, UInt8.ofInt, UInt8.toNat_ofNat']
    omega
  case read16_eq => exact fun _ _ => read8_of_read16 hm
  case slice_eq => exact fun _ _ _ => read8_of_slice hm
  case load_slice => exact fun _ _ _ => load_of_slice hm

end Chip8.Memory
