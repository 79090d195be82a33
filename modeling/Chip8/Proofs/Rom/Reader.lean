import Chip8.Rom.Reader
import Mathlib

/-!
# Programs from partial reads

A reader that counts whole bytes (`CountsBytes`) may give a file in parts of any size.  The counts
that it has given so far tell everything about the reading: the next call asks for the rest of the
file from their sum on (`requests`), and the program so far is as long a prefix of the data.
`resume` is the reading from there on.

One more call either fails, or gives nothing, or leads to `resume` with one more count
(`resume_of_error`, `resume_of_gives`).  As the rest is shorter then, the reading ends, and
`resume_reads` says how: with the whole file, where it has shrunk, or with the failure (`Ends`).
`ofReader_partialReads` says this of a file from its start, and that parts which are never empty
all lead to the same program.
-/

namespace Chip8.Rom

/-! ### Counting whole bytes -/

namespace Reader

/-- The reader tells a size of whole bytes, and gives whole bytes whenever it gives any. -/
structure CountsBytes (reader : Reader) (size : Nat) : Prop where
  size_eq : reader.size = .ok (size : Rat)
  grant_eq : ∀ (call length position : Nat) granted,
    reader.grant call length position = .ok granted → ∃ n : Nat, granted = n

/-- Call number `call` for `length` bytes from `position` on gives `n`: what the reader likes, of
those that were asked for and are there. -/
def Gives (reader : Reader) (call length position n : Nat) : Prop :=
  ∃ granted : Nat, reader.grant call length position = .ok (granted : Rat) ∧
    n = min granted (min length (reader.data.length - position))

/-- The reader never fails, and as long as there are bytes that were asked for it gives some. -/
def Steady (reader : Reader) : Prop :=
  ∀ call length position : Nat, ∃ granted : Nat,
    reader.grant call length position = .ok (granted : Rat) ∧
      (0 < length → position < reader.data.length → 0 < granted)

end Reader

/-- The call for the rest of a file after `total` bytes, which puts it there and is given `n`. -/
def request (size total n : Nat) : ReadCall := ⟨total, (size - total : Nat), total, n⟩

/-- The calls for a file of `size` bytes if they give `counts`: each asks for the rest after the sum
of the counts before it. -/
def requests (size : Nat) (counts : List Nat) : List ReadCall :=
  counts.mapIdx fun k n => request size (counts.take k).sum n

namespace Reader

/-- Asked in this way, the reader gives `counts`. -/
def Answers (reader : Reader) (size : Nat) (counts : List Nat) : Prop :=
  ∀ k (h : k < counts.length),
    reader.Gives k (size - (counts.take k).sum) (counts.take k).sum counts[k]

/-- How reading a file of `size` bytes ends after the calls that gave `counts`: the file is
complete, or the last of them gave nothing before that, or the next call fails.  With that one,
too, there are no more calls than bytes. -/
inductive Ends (reader : Reader) (size : Nat) : List Nat → Except Failure (List UInt8) → Prop
  | complete {counts : List Nat} (hpos : ∀ n ∈ counts, 0 < n) (hsum : counts.sum = size)
      (hlength : size ≤ reader.data.length) : Ends reader size counts (.ok (reader.data.take size))
  | shrunk {counts : List Nat} (hpos : ∀ n ∈ counts, 0 < n) (hsum : counts.sum < size) :
      Ends reader size (counts ++ [0]) (.error (.fault (shrunkFault counts.sum size)))
  | failed {counts : List Nat} {e : Failure} (hpos : ∀ n ∈ counts, 0 < n)
      (hsum : counts.sum < size)
      (herror : reader.grant counts.length (size - counts.sum : Nat) counts.sum = .error e)
      (hcalls : counts.length < size) : Ends reader size counts (.error e)

end Reader

section Counting

variable {reader : Reader} {size : Nat}

/-- Of the bytes that a reader grants, those count that were asked for and are there. -/
theorem accepted_natCast (granted : Nat) {length position : Nat}
    (hlength : length < 0x20000000000000) (hposition : position ≤ reader.data.length) :
    reader.accepted granted length position =
      (min granted (min length (reader.data.length - position)) : Nat) := by
  have hmin : min length (reader.data.length - position) < 0x20000000000000 :=
    Nat.lt_of_le_of_lt (Nat.min_le_left _ _) hlength
  simp only [Reader.accepted]
  rw [← Nat.cast_sub hposition, Number.lesser_natCast, Number.rounded_natCast hmin,
    Number.lesser_natCast, Number.greater_zero_natCast]

theorem between_natCast (reader : Reader) (start n : Nat) :
    reader.between start (start + n : Nat) = (reader.data.drop start).take n := by
  have hfloor (m : Nat) : (m : Rat).floor.toNat = m := by
    rw [← Rat.intCast_natCast, Rat.floor_intCast, Int.toNat_natCast]
  rw [Reader.between, hfloor, hfloor, Nat.add_sub_cancel_left]

theorem distance_natCast {total : Nat} (h : total ≤ size) :
    distance size total = (size - total) * (Int.pow 2 1074).toNat := by
  have hpow : (0 : Int) ≤ Int.pow 2 1074 := Int.le_of_lt (Int.pow_pos (by decide))
  unfold distance
  rw [← Nat.cast_sub h, Rat.num_natCast, Rat.den_natCast, Int.natCast_one, Int.ediv_one,
    Int.toNat_mul (Int.natCast_nonneg _) hpow, Int.toNat_natCast]

/-- Every byte brings the position nearer to the end. -/
theorem distance_add_lt {total n : Nat} (hn : 0 < n) (h : total + n ≤ size) :
    distance size (total + n : Nat) < distance size total := by
  have hpow : (0 : Int) < Int.pow 2 1074 := Int.pow_pos (by decide)
  rw [distance_natCast h, distance_natCast (by omega)]
  exact Nat.mul_lt_mul_of_pos_right (by omega) (by omega)

end Counting

/-! ### The calls so far -/

section Calls

variable {reader : Reader} {size : Nat} {counts : List Nat}

@[simp] theorem length_requests (size : Nat) (counts : List Nat) :
    (requests size counts).length = counts.length :=
  List.length_mapIdx

theorem take_concat_sum (counts : List Nat) (n k : Nat) (h : k ≤ counts.length) :
    ((counts ++ [n]).take k).sum = (counts.take k).sum := by
  rw [List.take_append_of_le_length h]

/-- One more call asks for the rest. -/
theorem requests_concat (size : Nat) (counts : List Nat) (n : Nat) :
    requests size (counts ++ [n]) = requests size counts ++ [request size counts.sum n] := by
  -- a call depends only on the counts before it
  have hbefore : (counts.mapIdx fun k n' => request size ((counts ++ [n]).take k).sum n') =
      requests size counts := by
    refine List.ext_getElem (by simp) fun k hk _ => ?_
    rw [List.length_mapIdx] at hk
    simp only [requests, List.getElem_mapIdx, take_concat_sum counts n k (Nat.le_of_lt hk)]
  rw [requests, List.mapIdx_concat, hbefore, take_concat_sum counts n _ (Nat.le_refl _),
    List.take_length]

namespace Reader

theorem answers_nil (reader : Reader) (size : Nat) : reader.Answers size [] :=
  fun k h => absurd h (Nat.not_lt_zero k)

theorem Answers.concat (h : reader.Answers size counts) {n : Nat}
    (hn : reader.Gives counts.length (size - counts.sum) counts.sum n) :
    reader.Answers size (counts ++ [n]) := by
  intro k hk
  rw [List.length_append, List.length_singleton] at hk
  rw [take_concat_sum counts n k (by omega)]
  rcases Nat.lt_or_eq_of_le (Nat.le_of_lt_succ hk) with hlt | rfl
  · rw [List.getElem_append_left hlt]
    exact h k hlt
  · rw [List.take_length, List.getElem_concat_length rfl]
    exact hn

/-- No more is given than there is, and than was asked for. -/
theorem Answers.sum_take_le (h : reader.Answers size counts) :
    ∀ k ≤ counts.length, (counts.take k).sum ≤ min size reader.data.length
  | 0, _ => Nat.zero_le _
  | k + 1, hk => by
    have hle := h.sum_take_le k (Nat.le_of_succ_le hk)
    obtain ⟨granted, -, hgives⟩ := h k hk
    rw [List.sum_take_succ counts k hk, hgives]
    omega

theorem Answers.sum_le (h : reader.Answers size counts) :
    counts.sum ≤ min size reader.data.length := by
  have hle := h.sum_take_le counts.length (Nat.le_refl _)
  rwa [List.take_length] at hle

end Reader

end Calls

/-! ### Going on -/

/-- The reading of a file of `size` bytes after the calls that gave `counts`. -/
def resume (reader : Reader) (size : Nat) (counts : List Nat) (idle : Nat) : Assembled :=
  assemble reader size size (reader.data.take counts.sum).toArray (requests size counts).toArray
    counts.sum idle

/-- How a reading ended, after the calls that gave `counts`. -/
structure Reads (reader : Reader) (size : Nat) (counts : List Nat) (result : Assembled) :
    Prop where
  calls_eq : result.calls = requests size counts
  answers : reader.Answers size counts
  ends : reader.Ends size counts result.rom

section Resume

variable {reader : Reader} {size : Nat} {counts : List Nat} (idle : Nat)

theorem resume_of_le (h : size ≤ counts.sum) :
    resume reader size counts idle =
      ⟨.ok (reader.data.take counts.sum), requests size counts⟩ := by
  rw [resume, assemble, if_pos (Rat.natCast_le_natCast.2 h)]

variable (hsize : size ≤ 0xE00) (hlt : counts.sum < size)

include hsize hlt

/-- The next call asks for the rest. -/
theorem rounded_rest :
    Number.rounded ((size : Rat) - (counts.sum : Nat)) = (size - counts.sum : Nat) := by
  rw [← Nat.cast_sub (Nat.le_of_lt hlt), Number.rounded_natCast (by omega)]

theorem resume_of_error {e : Failure}
    (h : reader.grant counts.length (size - counts.sum : Nat) counts.sum = .error e) :
    resume reader size counts idle = ⟨.error e, requests size counts⟩ := by
  rw [resume, assemble, if_neg (mt Rat.natCast_le_natCast.1 (Nat.not_le.2 hlt))]
  simp only [List.size_toArray, length_requests, rounded_rest hsize hlt, h]

/-- A call that gives nothing ends the reading; after another it goes on. -/
theorem resume_of_gives (hle : counts.sum ≤ reader.data.length) {n : Nat}
    (h : reader.Gives counts.length (size - counts.sum) counts.sum n) :
    resume reader size counts idle =
      if n = 0 then
        ⟨.error (.fault (shrunkFault counts.sum size)), requests size (counts ++ [n])⟩
      else resume reader size (counts ++ [n]) patience := by
  obtain ⟨granted, hgrant, hgiven⟩ := h
  have hfits : counts.sum + n ≤ size := by omega
  have hcount : reader.accepted granted (size - counts.sum : Nat) counts.sum = n := by
    rw [accepted_natCast granted (by omega) hle, ← hgiven]
  have hstop : Number.rounded ((counts.sum : Nat) + (n : Nat)) = (counts.sum + n : Nat) := by
    rw [← Nat.cast_add, Number.rounded_natCast (by omega)]
  have hcapacity : ¬ size < (reader.data.take counts.sum).length +
      ((reader.data.drop counts.sum).take n).length := by
    rw [List.length_take, List.length_take]
    omega
  have hcalls : (requests size counts).toArray.push (request size counts.sum n) =
      (requests size (counts ++ [n])).toArray := by
    rw [requests_concat, List.push_toArray]
  rw [resume, assemble, if_neg (mt Rat.natCast_le_natCast.1 (Nat.not_le.2 hlt))]
  simp only [List.size_toArray, length_requests, rounded_rest hsize hlt, hgrant, hcount, hstop,
    between_natCast]
  rw [if_neg hcapacity]
  by_cases hzero : n = 0
  · rw [if_pos hzero, if_pos (by rw [hzero, Nat.cast_zero])]
    exact congrArg (Assembled.mk _ ·.toList) hcalls
  · have hsum : (counts ++ [n]).sum = counts.sum + n := by
      rw [List.sum_append, List.sum_singleton]
    have hrom : (reader.data.take counts.sum).toArray ++ (reader.data.drop counts.sum).take n =
        (reader.data.take (counts.sum + n)).toArray := by
      rw [List.take_add, List.toArray_appendList]
    rw [if_neg hzero, if_neg (Nat.cast_ne_zero.2 hzero),
      if_pos (distance_add_lt (Nat.pos_of_ne_zero hzero) hfits), resume, hsum, hrom]
    exact congrArg (assemble reader size size _ · _ patience) hcalls

end Resume

/-- The reading ends, with the calls so far and those that follow. -/
theorem resume_reads {reader : Reader} {size : Nat} (hreader : reader.CountsBytes size)
    (hsize : size ≤ 0xE00) (sofar : List Nat) (idle : Nat) (hpos : ∀ n ∈ sofar, 0 < n)
    (hanswers : reader.Answers size sofar) :
    ∃ counts, Reads reader size counts (resume reader size sofar idle) := by
  -- on how much is left to read
  induction hrest : size - sofar.sum using Nat.strong_induction_on generalizing sofar idle with
  | _ rest ih =>
  have hle := hanswers.sum_le
  by_cases hcomplete : size ≤ sofar.sum
  · have hsum : sofar.sum = size := by omega
    refine ⟨sofar, ?_⟩
    rw [resume_of_le idle hcomplete, hsum]
    exact ⟨rfl, hanswers, .complete hpos hsum (by omega)⟩
  have hlt : sofar.sum < size := Nat.lt_of_not_le hcomplete
  cases hgrant : reader.grant sofar.length (size - sofar.sum : Nat) sofar.sum with
  | error e =>
    refine ⟨sofar, ?_⟩
    have hcalls : sofar.length ≤ sofar.sum := List.length_le_sum_of_one_le sofar hpos
    rw [resume_of_error idle hsize hlt hgrant]
    exact ⟨rfl, hanswers, .failed hpos hlt hgrant (by omega)⟩
  | ok granted =>
    obtain ⟨n, rfl⟩ := hreader.grant_eq _ _ _ _ hgrant
    have hgives : reader.Gives sofar.length (size - sofar.sum) sofar.sum _ := ⟨n, hgrant, rfl⟩
    have hnext := hanswers.concat hgives
    have hresume := resume_of_gives idle hsize hlt (by omega) hgives
    generalize min n (min (size - sofar.sum) (reader.data.length - sofar.sum)) = given at *
    rw [hresume]
    by_cases hzero : given = 0
    · rw [if_pos hzero]
      subst hzero
      exact ⟨sofar ++ [0], rfl, hnext, .shrunk hpos hlt⟩
    · rw [if_neg hzero]
      refine ih _ ?_ (sofar ++ [given]) patience ?_ hnext rfl
      · rw [List.sum_append, List.sum_singleton]
        omega
      · intro m hm
        rcases List.mem_append.1 hm with hm | hm
        · exact hpos m hm
        · rw [List.mem_singleton.1 hm]
          exact Nat.pos_of_ne_zero hzero

/-! ### Whole readings -/

section Whole

variable {reader : Reader} {size : Nat}

/-- There are no more calls than bytes, with the one that fails or gives nothing. -/
theorem Reads.length_le {counts : List Nat} {result : Assembled}
    (h : Reads reader size counts result) : counts.length ≤ size := by
  obtain ⟨-, -, hends⟩ := h
  generalize result.rom = rom at hends
  cases hends with
  | complete hpos hsum _ =>
    rw [← hsum]
    exact List.length_le_sum_of_one_le counts hpos
  | @shrunk before hpos hsum =>
    have hcalls : before.length ≤ before.sum := List.length_le_sum_of_one_le before hpos
    rw [List.length_append, List.length_singleton]
    omega
  | failed _ _ _ hcalls => exact Nat.le_of_lt hcalls

/-- A steady reader gives the start of its data, if there is so much. -/
theorem Reads.rom_eq {counts : List Nat} {result : Assembled}
    (h : Reads reader size counts result) (hsteady : reader.Steady) :
    result.rom =
      if size ≤ reader.data.length then .ok (reader.data.take size)
      else .error (.fault (shrunkFault reader.data.length size)) := by
  obtain ⟨-, hanswers, hends⟩ := h
  have hle := hanswers.sum_le
  generalize result.rom = rom at hends
  cases hends with
  | complete _ _ hlength => rw [if_pos hlength]
  | @shrunk before hpos hsum =>
    -- nothing was given, so nothing was there
    obtain ⟨n, hgrant, hzero⟩ := hanswers before.length (by simp)
    obtain ⟨granted, hgranted, hsome⟩ :=
      hsteady before.length (size - before.sum) before.sum
    simp only [List.take_left, List.getElem_concat_length] at hgrant hzero
    have heq : (n : Rat) = granted := Except.ok.inj (hgrant.symm.trans hgranted)
    rw [Nat.cast_inj] at heq
    rw [List.sum_append, List.sum_singleton] at hle
    have hend : before.sum = reader.data.length := by
      by_contra hne
      have := hsome (by omega) (by omega)
      omega
    rw [if_neg (by omega), hend]
  | failed _ _ herror _ =>
    obtain ⟨granted, hgranted, -⟩ := hsteady counts.length (size - counts.sum) counts.sum
    rw [herror] at hgranted
    cases hgranted

variable (hreader : reader.CountsBytes size)

include hreader

theorem ofReader_of_lt (h : 0xE00 < size) :
    ofReader reader = ⟨.error (.fault (sizeFault size)), []⟩ := by
  simp only [ofReader, hreader.size_eq, validate_natCast, if_pos h]

theorem ofReader_of_le (h : size ≤ 0xE00) : ofReader reader = resume reader size [] patience := by
  have hcount : Storage.count (.rat (size : Rat)) = .ok size :=
    Storage.count_ofInt (Nat.le_trans h (by decide))
  simp only [ofReader, hreader.size_eq, validate_natCast, if_neg (Nat.not_lt.2 h), hcount]
  rfl

theorem ofReader_reads (h : size ≤ 0xE00) :
    ∃ counts, Reads reader size counts (ofReader reader) := by
  rw [ofReader_of_le hreader h]
  exact resume_reads hreader h [] patience (fun n hn => absurd hn List.not_mem_nil)
    (reader.answers_nil size)

end Whole

/-! ### The parts do not matter -/

/-- A file that is too large is refused before anything is read.  Otherwise there are at most as
many calls as bytes, each for the rest of the file, and how they are answered tells how the reading
ends.  If the reader never fails and always gives some of what is there, the program is the start
of the data, or the file has shrunk to all of the data; so two such readers of the same data are
alike. -/
theorem ofReader_partialReads {reader : Reader} {size : Nat} (hreader : reader.CountsBytes size) :
    (0xE00 < size → ofReader reader = ⟨.error (.fault (sizeFault size)), []⟩) ∧
    (size ≤ 0xE00 → ∃ counts, counts.length ≤ size ∧ Reads reader size counts (ofReader reader)) ∧
    (size ≤ 0xE00 → reader.Steady →
      (ofReader reader).rom =
        if size ≤ reader.data.length then .ok (reader.data.take size)
        else .error (.fault (shrunkFault reader.data.length size))) ∧
    (∀ other : Reader, other.CountsBytes size → other.data = reader.data →
      reader.Steady → other.Steady → (ofReader other).rom = (ofReader reader).rom) := by
  refine ⟨ofReader_of_lt hreader, fun h => ?_, fun h hsteady => ?_, ?_⟩
  · obtain ⟨counts, hreads⟩ := ofReader_reads hreader h
    exact ⟨counts, hreads.length_le, hreads⟩
  · obtain ⟨counts, hreads⟩ := ofReader_reads hreader h
    exact hreads.rom_eq hsteady
  · intro other hother hdata hsteady hother_steady
    rcases Nat.lt_or_ge 0xE00 size with hlarge | h
    · rw [ofReader_of_lt hreader hlarge, ofReader_of_lt hother hlarge]
    · obtain ⟨counts, hreads⟩ := ofReader_reads hreader h
      obtain ⟨counts', hreads'⟩ := ofReader_reads hother h
      rw [hreads.rom_eq hsteady, hreads'.rom_eq hother_steady, hdata]

/-- A reader that gives one byte, then two, then three. -/
def growing : Reader where
  data := [0x12, 0x00, 0xE0, 0x7F, 0x01]
  size := .ok 4
  grant call _ _ := .ok (call + 1 : Nat)

theorem ofReader_partialReads_growing :
    growing.CountsBytes 4 ∧ growing.Steady ∧
      (ofReader growing).rom = .ok [0x12, 0x00, 0xE0, 0x7F] := by
  have hcounts : growing.CountsBytes 4 := {
    size_eq := rfl
    grant_eq := fun call _ _ granted h => ⟨call + 1, (Except.ok.inj h).symm⟩ }
  have hsteady : growing.Steady := fun call _ _ => ⟨call + 1, rfl, fun _ _ => Nat.succ_pos call⟩
  obtain ⟨-, -, hrom, -⟩ := ofReader_partialReads hcounts
  exact ⟨hcounts, hsteady, hrom (by decide) hsteady⟩

end Chip8.Rom
