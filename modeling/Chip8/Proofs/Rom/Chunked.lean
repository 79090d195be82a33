import Chip8.Rom.Chunked
import Mathlib.Data.Nat.Find
import Mathlib.Tactic.SplitIfs

/-!
# Programs from chunks

How a source is split into pieces does not matter: what is read is its content, the bytes of its
pieces in order, and where too many of them come the source is asked no further.  A source
overflows at a piece (`OverflowsAt`) if its bytes are too many from that piece on and it has not
failed before; a source that does not fail overflows at some piece exactly if it has too many bytes
(`exists_overflowsAt_iff`).

Reading goes over pieces that fit together at once (`collect_append`).  With this the pieces before
the one that ends the reading are passed over, whether that one is too many
(`collect_of_overflowsAt`), fails (`ofChunks_of_failing`) or is the last
(`ofChunks_of_length_le`).  `ofChunks_content` puts the cases together, in the order in which they
win over each other.
-/

namespace Chip8.Rom

/-! ### What a source holds -/

/-- The bytes of a piece: of each unit of text, its low 8 bits, and none of a failure. -/
def Chunk.content : Chunk → List UInt8
  | .bytes data => data
  | .text units => units.map fun u => UInt8.ofNat (u.toNat % 0x100)
  | .failing _ => []

/-- The bytes of pieces, in order. -/
def content (source : List Chunk) : List UInt8 := source.flatMap Chunk.content

/-- No piece is a failure. -/
def Unfailing (source : List Chunk) : Prop := ∀ e, Chunk.failing e ∉ source

/-- Piece number `k` is the first with which a source has more bytes than a program may have, and
the source has not failed before. -/
structure OverflowsAt (source : List Chunk) (k : Nat) : Prop where
  unfailing : Unfailing (source.take k)
  length_le : ∀ j < k, (content (source.take j)).length ≤ 0xE00
  lt_length : 0xE00 < (content (source.take k)).length

theorem data_eq_content {chunk : Chunk} (h : ∀ e, chunk ≠ .failing e) :
    chunk.data = .ok chunk.content := by
  cases chunk with
  | bytes data => rfl
  | text units =>
    have hunit (u : UInt16) : u.toUInt8 = UInt8.ofNat (u.toNat % 0x100) := by
      apply UInt8.toNat_inj.1
      simp
    exact congrArg Except.ok (List.map_congr_left fun u _ => hunit u)
  | failing e => exact absurd rfl (h e)

@[simp] theorem content_nil : content [] = [] := rfl

@[simp] theorem content_cons (chunk : Chunk) (rest : List Chunk) :
    content (chunk :: rest) = chunk.content ++ content rest :=
  List.flatMap_cons

@[simp] theorem content_append (source rest : List Chunk) :
    content (source ++ rest) = content source ++ content rest :=
  List.flatMap_append

theorem unfailing_cons {chunk : Chunk} {rest : List Chunk} :
    Unfailing (chunk :: rest) ↔ (∀ e, chunk ≠ .failing e) ∧ Unfailing rest := by
  simp only [Unfailing, List.mem_cons, not_or, ← forall_and, ne_comm]

/-! ### Going on -/

section Collect

variable (expected? : Option Rat) (rom : List UInt8) (pulled : Nat)

/-- A piece is added if it fits. -/
theorem collect_cons {chunk : Chunk} (h : ∀ e, chunk ≠ .failing e) (rest : List Chunk) :
    collect expected? rom pulled (chunk :: rest) =
      if 0xE00 < (rom ++ chunk.content).length then
        ⟨.error (.fault (sizeFault (rom ++ chunk.content).length)), pulled + 1⟩
      else collect expected? (rom ++ chunk.content) (pulled + 1) rest := by
  rw [collect, data_eq_content h]
  simp only [validate_natCast]
  by_cases hlarge : 0xE00 < (rom ++ chunk.content).length
  · rw [if_pos hlarge, if_pos hlarge]
  · rw [if_neg hlarge, if_neg hlarge]

/-- Pieces that fit together are added one after the other. -/
theorem collect_append {before : List Chunk} (hbefore : Unfailing before)
    (h : (rom ++ content before).length ≤ 0xE00) (rest : List Chunk) :
    collect expected? rom pulled (before ++ rest) =
      collect expected? (rom ++ content before) (pulled + before.length) rest := by
  induction before generalizing rom pulled with
  | nil => simp
  | cons chunk before ih =>
    obtain ⟨hchunk, hbefore⟩ := unfailing_cons.1 hbefore
    rw [content_cons, ← List.append_assoc] at h
    -- what fits with the pieces that follow fits without them
    have hfits : ¬ 0xE00 < (rom ++ chunk.content).length := by
      rw [List.length_append] at h
      omega
    rw [List.cons_append, collect_cons expected? rom pulled hchunk, if_neg hfits,
      ih _ _ hbefore h, content_cons, List.append_assoc, List.length_cons, Nat.add_right_comm,
      Nat.add_assoc]

theorem collect_failing (e : Failure) (rest : List Chunk) :
    collect expected? rom pulled (.failing e :: rest) = ⟨.error e, pulled + 1⟩ := rfl

end Collect

/-! ### Where a source overflows -/

/-- Pieces that are too many bytes are so from some piece on. -/
theorem exists_overflowsAt (source : List Chunk) (n : Nat) (hsource : Unfailing (source.take n))
    (h : 0xE00 < (content (source.take n)).length) : ∃ k, OverflowsAt source k := by
  have hexists : ∃ k, 0xE00 < (content (source.take k)).length := ⟨n, h⟩
  refine ⟨Nat.find hexists, ?_, fun j hj => ?_, Nat.find_spec hexists⟩
  · intro e he
    exact hsource e (List.take_subset_take_left source (Nat.find_min' hexists h) he)
  · exact Nat.not_lt.1 (Nat.find_min hexists hj)

/-- A source that does not fail overflows exactly if it has too many bytes. -/
theorem exists_overflowsAt_iff {source : List Chunk} (hsource : Unfailing source) :
    (∃ k, OverflowsAt source k) ↔ 0xE00 < (content source).length := by
  constructor
  · rintro ⟨k, h⟩
    have hlt := h.lt_length
    have hsplit : content source = content (source.take k) ++ content (source.drop k) := by
      rw [← content_append, List.take_append_drop]
    rw [hsplit, List.length_append]
    omega
  · intro h
    rw [← List.take_length (l := source)] at hsource h
    exact exists_overflowsAt source source.length hsource h

/-- At the piece with which a source overflows, reading stops. -/
theorem collect_of_overflowsAt (expected? : Option Rat) {source : List Chunk} {k : Nat}
    (h : OverflowsAt source k) :
    collect expected? [] 0 source =
      ⟨.error (.fault (sizeFault (content (source.take k)).length)), k⟩ := by
  obtain ⟨j, rfl⟩ : ∃ j, k = j + 1 := by
    refine Nat.exists_eq_succ_of_ne_zero ?_
    rintro rfl
    exact absurd h.lt_length (Nat.not_lt_zero 0xE00)
  -- the piece exists, since without it the bytes were not too many
  have hbefore := h.length_le j (Nat.lt_succ_self j)
  have hlt := h.lt_length
  have hj : j < source.length := by
    by_contra hpast
    rw [List.take_of_length_le (by omega)] at hlt hbefore
    omega
  have htake : source.take (j + 1) = source.take j ++ [source[j]] :=
    (List.take_append_getElem hj).symm
  have hunfailing : Unfailing (source.take j) := fun e he =>
    h.unfailing e (List.take_subset_take_left source (Nat.le_succ j) he)
  have hpiece : ∀ e, source[j] ≠ .failing e := by
    intro e he
    refine h.unfailing e ?_
    rw [htake, he]
    exact List.mem_append_right _ List.mem_cons_self
  have hcontent : content (source.take (j + 1)) = content (source.take j) ++ source[j].content := by
    rw [htake, content_append, content_cons, content_nil, List.append_nil]
  have hsource : source = source.take j ++ source[j] :: source.drop (j + 1) := by
    rw [← List.drop_eq_getElem_cons hj, List.take_append_drop]
  rw [hcontent] at hlt ⊢
  have hcollect :=
    collect_append expected? [] 0 hunfailing hbefore (source[j] :: source.drop (j + 1))
  rw [← hsource, List.nil_append, collect_cons _ _ _ hpiece, if_pos hlt] at hcollect
  rw [hcollect, List.length_take, Nat.min_eq_left (Nat.le_of_lt hj), Nat.zero_add]

/-! ### Whole sources -/

section Whole

variable (source : List Chunk)

theorem ofChunks_of_lt {E : Nat} (h : 0xE00 < E) :
    ofChunks source (some (E : Rat)) = ⟨.error (.fault (sizeFault E)), 0⟩ := by
  rw [ofChunks, Option.elim_some, validate_natCast, if_pos h]

theorem ofChunks_of_le {expected? : Option Nat} (h : ∀ E ∈ expected?, E ≤ 0xE00) :
    ofChunks source (expected?.map Nat.cast) = collect (expected?.map Nat.cast) [] 0 source := by
  cases expected? with
  | none => rfl
  | some E =>
    have hE : ¬ 0xE00 < E := Nat.not_lt.2 (h E rfl)
    rw [Option.map_some, ofChunks, Option.elim_some, validate_natCast, if_neg hE]

theorem finish_natCast (expected? : Option Nat) (rom : List UInt8) :
    finish (expected?.map Nat.cast) rom =
      match expected? with
      | some E =>
        if rom.length < E then .error (.fault (truncationFault rom.length E)) else .ok rom
      | none => .ok rom := by
  cases expected? with
  | none => rfl
  | some E => simp only [finish, Option.map_some, Rat.natCast_lt_natCast]

variable {source} {expected? : Option Nat} (hexpected : ∀ E ∈ expected?, E ≤ 0xE00)

include hexpected

/-- A source that fails before it overflows is read to its failure. -/
theorem ofChunks_of_failing {before rest : List Chunk} {e : Failure} (hbefore : Unfailing before)
    (h : (content before).length ≤ 0xE00) :
    ofChunks (before ++ .failing e :: rest) (expected?.map Nat.cast) =
      ⟨.error e, before.length + 1⟩ := by
  rw [ofChunks_of_le _ hexpected, collect_append _ [] 0 hbefore h, collect_failing, Nat.zero_add]

/-- A source that neither fails nor overflows is read to its end. -/
theorem ofChunks_of_length_le (hsource : Unfailing source)
    (h : (content source).length ≤ 0xE00) :
    ofChunks source (expected?.map Nat.cast) =
      ⟨finish (expected?.map Nat.cast) (content source), source.length⟩ := by
  have hcollect := collect_append (expected?.map Nat.cast) [] 0 hsource h []
  rw [List.append_nil, List.nil_append, Nat.zero_add] at hcollect
  rw [ofChunks_of_le _ hexpected, hcollect]
  rfl

/-- A source that does not fail and has too many bytes overflows. -/
theorem ofChunks_of_lt_length (hsource : Unfailing source)
    (h : 0xE00 < (content source).length) :
    ∃ n : Nat, (ofChunks source (expected?.map Nat.cast)).rom = .error (.fault (sizeFault n)) := by
  obtain ⟨k, hk⟩ := (exists_overflowsAt_iff hsource).2 h
  rw [ofChunks_of_le _ hexpected, collect_of_overflowsAt _ hk]
  exact ⟨_, rfl⟩

end Whole

/-- Sources with the same bytes that do not fail are alike, however the bytes are split. -/
theorem rom_ofChunks_of_content_eq (expected? : Option Nat) {source other : List Chunk}
    (hsource : Unfailing source) (hother : Unfailing other) (h : content other = content source) :
    (ofChunks other (expected?.map Nat.cast)).rom =
        (ofChunks source (expected?.map Nat.cast)).rom ∨
      ∃ n n' : Nat,
        (ofChunks source (expected?.map Nat.cast)).rom = .error (.fault (sizeFault n)) ∧
          (ofChunks other (expected?.map Nat.cast)).rom = .error (.fault (sizeFault n')) := by
  by_cases hexpected : ∀ E ∈ expected?, E ≤ 0xE00
  · by_cases hlength : (content source).length ≤ 0xE00
    · refine .inl ?_
      rw [ofChunks_of_length_le hexpected hsource hlength,
        ofChunks_of_length_le hexpected hother (by rwa [h]), h]
    · obtain ⟨n, hn⟩ := ofChunks_of_lt_length hexpected hsource (Nat.lt_of_not_le hlength)
      obtain ⟨n', hn'⟩ := ofChunks_of_lt_length hexpected hother (by rw [h]; omega)
      exact .inr ⟨n, n', hn, hn'⟩
  · simp only [not_forall, Nat.not_le] at hexpected
    obtain ⟨E, rfl, hE⟩ := hexpected
    refine .inl ?_
    rw [Option.map_some, ofChunks_of_lt other hE, ofChunks_of_lt source hE]

/-! ### Chunks do not matter -/

/-- An expected length beyond the limit is refused before anything is asked for.  Otherwise the
source is asked up to the first piece with which it has too many bytes; if it fails before, that is
the failure; if it ends before, with fewer bytes than expected, it is truncated, and else its bytes
in order are the program.  So of two sources that do not fail and have the same bytes, both give
the same program or fail alike. -/
theorem ofChunks_content (source : List Chunk) (expected? : Option Nat) :
    let read (source : List Chunk) := ofChunks source (expected?.map Nat.cast)
    let bytes := content source
    (∀ E ∈ expected?, 0xE00 < E → read source = ⟨.error (.fault (sizeFault E)), 0⟩) ∧
    ((∀ E ∈ expected?, E ≤ 0xE00) →
      (∀ k, OverflowsAt source k →
        read source = ⟨.error (.fault (sizeFault (content (source.take k)).length)), k⟩) ∧
      ((∀ k, ¬ OverflowsAt source k) →
        (∀ before e rest, source = before ++ .failing e :: rest → Unfailing before →
          read source = ⟨.error e, before.length + 1⟩) ∧
        (Unfailing source →
          (∀ E ∈ expected?, bytes.length < E →
            read source = ⟨.error (.fault (truncationFault bytes.length E)), source.length⟩) ∧
          ((∀ E ∈ expected?, E ≤ bytes.length) → read source = ⟨.ok bytes, source.length⟩)))) ∧
    (Unfailing source → ∀ other, Unfailing other → content other = bytes →
      (read other).rom = (read source).rom ∨
        ∃ n n' : Nat, (read source).rom = .error (.fault (sizeFault n)) ∧
          (read other).rom = .error (.fault (sizeFault n'))) := by
  intro read bytes
  refine ⟨?_, fun hexpected => ⟨fun k hk => ?_, fun hfits => ⟨?_, fun hsource => ?_⟩⟩, ?_⟩
  · rintro E rfl hE
    exact ofChunks_of_lt source hE
  · exact (ofChunks_of_le source hexpected).trans (collect_of_overflowsAt _ hk)
  · rintro before e rest rfl hbefore
    -- if the pieces before the failure were too many bytes, they would overflow
    have hle : (content before).length ≤ 0xE00 := by
      by_contra hlarge
      have htake : (before ++ .failing e :: rest).take before.length = before := List.take_left
      obtain ⟨k, hk⟩ := exists_overflowsAt (before ++ .failing e :: rest) before.length
        (by rwa [htake]) (by rw [htake]; omega)
      exact hfits k hk
    exact ofChunks_of_failing hexpected hbefore hle
  · have hle : bytes.length ≤ 0xE00 := by
      by_contra hlarge
      obtain ⟨k, hk⟩ := (exists_overflowsAt_iff hsource).2 (Nat.lt_of_not_le hlarge)
      exact hfits k hk
    have hread : read source = _ := ofChunks_of_length_le hexpected hsource hle
    rw [finish_natCast] at hread
    constructor
    · rintro E rfl hE
      rw [hread]
      exact congrArg (Collected.mk · _) (if_pos hE)
    · intro hE
      rw [hread]
      cases expected? with
      | none => rfl
      | some E => exact congrArg (Collected.mk · _) (if_neg (Nat.not_lt.2 (hE E rfl)))
  · intro hsource other hother h
    exact rom_ofChunks_of_content_eq expected? hsource hother h

end Chip8.Rom
