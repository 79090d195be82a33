import Chip8.Machine.Snapshot
import Chip8.Proofs.Instruction.Text

/-!
# Trace lines lose nothing

A trace line can be read back from left to right.  Its labels are the same in all lines and no
number contains a blank, so each number ends at the next one (`cut_field`).  The instruction at the
end is that of the word in front, hence the registers between them are known where the word is
(`registers_inj`).  `line_injective` puts this together, for snapshots of natural numbers and any
number of registers.

The instruction of a word of any size can be shown: the only fault of decoding is the one that has
a text of its own (`Instruction.tryDisassemble_eq_ok`).
-/

namespace Chip8

namespace Instruction

/-! ### Words of any size -/

/-- The instruction of a word in assembly, where of all faults only the one that there is no
instruction has a text. -/
def tryDisassemble (op : Number) : Except Fault String :=
  match ofNumber op with
  | .ok ins => .ok (ins.map .ofInt).text
  | .error f => if f.code = .unknownOpcode then .ok "???" else .error f

/-- There is no other fault. -/
theorem tryDisassemble_eq_ok (op : Number) :
    tryDisassemble op = .ok (disassemble op) := by
  unfold tryDisassemble ofNumber disassemble
  cases ofNumber? op <;> rfl

end Instruction

namespace Snapshot

open Numeral (digitsValue)

/-! ### Numbers in a line -/

/-- The number is a natural one. -/
def IsNatural (a : Number) : Prop := ∃ k : Nat, a = .ofInt k

/-- All numbers of a snapshot are natural. -/
structure Natural (s : Snapshot) : Prop where
  pc : IsNatural s.pc
  op : ∀ op ∈ s.op?, IsNatural op
  i : IsNatural s.i
  sp : IsNatural s.sp
  dt : IsNatural s.dt
  st : IsNatural s.st
  v : ∀ value ∈ s.v, IsNatural value

/-- The number of a field. -/
def readField (cs : List Char) : Number := .ofInt (digitsValue 16 cs)

theorem readField_field (width : Nat) {a : Number} (ha : IsNatural a) :
    readField (field width a) = a := by
  obtain ⟨k, rfl⟩ := ha
  rw [readField, field, Instruction.digitsValue_hexDigits]

theorem field_inj {width : Nat} {a b : Number} (ha : IsNatural a) (hb : IsNatural b)
    (h : field width a = field width b) : a = b := by
  rw [← readField_field width ha, h, readField_field width hb]

theorem isDigit_of_mem_field {width : Nat} {a : Number} (ha : IsNatural a) :
    ∀ c ∈ field width a, Numeral.isDigit 16 c = true := by
  obtain ⟨k, rfl⟩ := ha
  exact Instruction.isDigit_of_mem_hexDigits width k

theorem blank_notMem_field {width : Nat} {a : Number} (ha : IsNatural a) :
    ' ' ∉ field width a :=
  (Instruction.isWord_of_isDigit (isDigit_of_mem_field ha)).2

theorem field_ne_nil {width : Nat} {a : Number} (ha : IsNatural a) : field width a ≠ [] := by
  obtain ⟨k, rfl⟩ := ha
  have hdigits : Nat.toDigits 16 k ≠ [] := Nat.toDigits_ne_nil
  simp [field, Instruction.hexDigits, Number.hex_ofInt_natCast, Text.padZeros, Text.upper, hdigits]

/-! ### Cutting at blanks -/

/-- A text without a blank ends at the first one. -/
theorem append_blank_inj {cs ds rest rest' : List Char} (hcs : ' ' ∉ cs) (hds : ' ' ∉ ds)
    (h : cs ++ ' ' :: rest = ds ++ ' ' :: rest') : cs = ds ∧ rest = rest' := by
  induction cs generalizing ds with
  | nil =>
    cases ds with
    | nil => exact ⟨rfl, (List.cons.inj h).2⟩
    | cons d ds =>
      obtain ⟨rfl, -⟩ := List.cons.inj h
      exact absurd List.mem_cons_self hds
  | cons c cs ih =>
    cases ds with
    | nil =>
      obtain ⟨rfl, -⟩ := List.cons.inj h
      exact absurd List.mem_cons_self hcs
    | cons d ds =>
      obtain ⟨rfl, htail⟩ := List.cons.inj h
      obtain ⟨rfl, hrest⟩ :=
        ih (List.not_mem_of_not_mem_cons hcs) (List.not_mem_of_not_mem_cons hds) htail
      exact ⟨rfl, hrest⟩

/-- What follows a label ends at the first blank. -/
theorem cut {label cs ds rest rest' : List Char} (hcs : ' ' ∉ cs) (hds : ' ' ∉ ds)
    (h : label ++ (cs ++ ' ' :: rest) = label ++ (ds ++ ' ' :: rest')) :
    cs = ds ∧ rest = rest' :=
  append_blank_inj hcs hds (List.append_cancel_left h)

theorem cut_field {label rest rest' : List Char} {width : Nat} {a b : Number} (ha : IsNatural a)
    (hb : IsNatural b)
    (h : label ++ (field width a ++ ' ' :: rest) = label ++ (field width b ++ ' ' :: rest')) :
    a = b ∧ rest = rest' := by
  obtain ⟨hfield, hrest⟩ := cut (blank_notMem_field ha) (blank_notMem_field hb) h
  exact ⟨field_inj ha hb hfield, hrest⟩

/-! ### The word -/

/-- The word as it is written. -/
def opChars (s : Snapshot) : List Char := s.op?.elim "----".toList (field 4)

/-- The instruction at the end of a line. -/
def asmChars (s : Snapshot) : List Char :=
  s.op?.elim [] fun op => ' ' :: ' ' :: (Instruction.disassemble op).toList

theorem blank_notMem_opChars {s : Snapshot} (hs : s.Natural) : ' ' ∉ s.opChars := by
  unfold opChars
  cases hop : s.op? with
  | none => decide
  | some op => exact blank_notMem_field (hs.op op hop)

/-- The dashes for no word are not digits. -/
theorem opChars_inj {s s' : Snapshot} (hs : s.Natural) (hs' : s'.Natural)
    (h : s.opChars = s'.opChars) : s.op? = s'.op? := by
  have hdash {a : Number} (ha : IsNatural a) : "----".toList ≠ field 4 a := by
    intro hdashes
    have hmem : '-' ∈ "----".toList := by decide
    rw [hdashes] at hmem
    exact absurd (isDigit_of_mem_field ha '-' hmem) (by decide)
  unfold opChars at h
  cases hop : s.op? with
  | none =>
    cases hop' : s'.op? with
    | none => rfl
    | some op' =>
      rw [hop, hop'] at h
      exact absurd h (hdash (hs'.op op' hop'))
  | some op =>
    cases hop' : s'.op? with
    | none =>
      rw [hop, hop'] at h
      exact absurd h.symm (hdash (hs.op op hop))
    | some op' =>
      rw [hop, hop'] at h
      exact congrArg some (field_inj (hs.op op hop) (hs'.op op' hop') h)

/-! ### The registers -/

/-- The words of a text; there is none in an empty one. -/
def words (cs : List Char) : List (List Char) := if cs = [] then [] else cs.splitOn ' '

theorem words_intercalate {ws : List (List Char)} (h : ∀ w ∈ ws, w ≠ [] ∧ ' ' ∉ w) :
    words ([' '].intercalate ws) = ws := by
  cases ws with
  | nil => rfl
  | cons w rest =>
    have hne : [' '].intercalate (w :: rest) ≠ [] := by
      intro hnil
      cases rest with
      | nil => simp [(h w (by simp)).1] at hnil
      | cons w' rest => simp [List.intercalate_cons_cons] at hnil
    rw [words, if_neg hne]
    exact List.splitOn_intercalate ' ' (fun w hw => (h w hw).2) (List.cons_ne_nil _ _)

/-- The registers of a line can be read. -/
theorem readField_words {v : List Number} (hv : ∀ value ∈ v, IsNatural value) :
    (words ([' '].intercalate (v.map (field 2)))).map readField = v := by
  rw [words_intercalate, List.map_map]
  · have hid : ∀ value ∈ v, (readField ∘ field 2) value = id value :=
      fun value hvalue => readField_field 2 (hv value hvalue)
    rw [List.map_congr_left hid, List.map_id]
  · intro w hw
    obtain ⟨value, hvalue, rfl⟩ := List.mem_map.1 hw
    exact ⟨field_ne_nil (hv value hvalue), blank_notMem_field (hv value hvalue)⟩

theorem registers_inj {v v' : List Number} (hv : ∀ value ∈ v, IsNatural value)
    (hv' : ∀ value ∈ v', IsNatural value)
    (h : [' '].intercalate (v.map (field 2)) = [' '].intercalate (v'.map (field 2))) : v = v' := by
  rw [← readField_words hv, h, readField_words hv']

/-! ### Lines -/

/-- A line from left to right. -/
theorem lineChars_eq (s : Snapshot) :
    s.lineChars =
      "PC=".toList ++ (field 4 s.pc ++ ' ' ::
        ("OP=".toList ++ (s.opChars ++ ' ' ::
          ("I=".toList ++ (field 4 s.i ++ ' ' ::
            ("SP=".toList ++ (field 1 s.sp ++ ' ' ::
              ("DT=".toList ++ (field 2 s.dt ++ ' ' ::
                ("ST=".toList ++ (field 2 s.st ++ ' ' ::
                  ("V=".toList ++
                    ([' '].intercalate (s.v.map (field 2)) ++ s.asmChars))))))))))))) := by
  unfold lineChars
  repeat rw [List.append_assoc]
  rfl

/-- Snapshots of natural numbers, with or without a word and with any number of registers, are the
same if their lines are.  A line can always be written, since the instruction of a word can be
shown whatever the word is. -/
theorem line_injective :
    (∀ s s' : Snapshot, s.Natural → s'.Natural → s.line = s'.line → s = s') ∧
      ∀ op : Number, Instruction.tryDisassemble op = .ok (Instruction.disassemble op) := by
  refine ⟨?_, Instruction.tryDisassemble_eq_ok⟩
  intro s s' hs hs' h
  have hchars : s.lineChars = s'.lineChars := String.ofList_injective h
  rw [lineChars_eq, lineChars_eq] at hchars
  obtain ⟨hpc, hchars⟩ := cut_field hs.pc hs'.pc hchars
  obtain ⟨hop, hchars⟩ := cut (blank_notMem_opChars hs) (blank_notMem_opChars hs') hchars
  obtain ⟨hi, hchars⟩ := cut_field hs.i hs'.i hchars
  obtain ⟨hsp, hchars⟩ := cut_field hs.sp hs'.sp hchars
  obtain ⟨hdt, hchars⟩ := cut_field hs.dt hs'.dt hchars
  obtain ⟨hst, hchars⟩ := cut_field hs.st hs'.st hchars
  have hop? := opChars_inj hs hs' hop
  -- the words are the same, and so are their instructions
  have hasm : s.asmChars = s'.asmChars := by rw [asmChars, hop?, asmChars]
  rw [hasm] at hchars
  have hv := registers_inj hs.v hs'.v (List.append_cancel_right (List.append_cancel_left hchars))
  obtain ⟨pc, op?, i, sp, dt, st, v⟩ := s
  obtain ⟨pc', op?', i', sp', dt', st', v'⟩ := s'
  simp only at hpc hop? hi hsp hdt hst hv
  rw [hpc, hop?, hi, hsp, hdt, hst, hv]

/-- A register less, in front of a word that is too wide for an instruction. -/
theorem line_injective_wide :
    let s : Snapshot := ⟨.ofInt 0x200, some (.ofInt 0x100E0), .ofInt 0, .ofInt 0, .ofInt 0, .ofInt 0,
      [.ofInt 0xA, .ofInt 0x1F00]⟩
    s.line ≠ { s with v := [.ofInt 0xA] }.line ∧
      Instruction.tryDisassemble (.ofInt 0x100E0) = .ok "???" := by
  intro s
  have hs : s.Natural := by
    refine ⟨⟨0x200, rfl⟩, ?_, ⟨0, rfl⟩, ⟨0, rfl⟩, ⟨0, rfl⟩, ⟨0, rfl⟩, ?_⟩
    · rintro op ⟨⟩
      exact ⟨0x100E0, rfl⟩
    · intro value hvalue
      simp only [s, List.mem_cons, List.not_mem_nil, or_false] at hvalue
      rcases hvalue with rfl | rfl
      · exact ⟨0xA, rfl⟩
      · exact ⟨0x1F00, rfl⟩
  have hless : Natural { s with v := [.ofInt 0xA] } :=
    ⟨hs.pc, hs.op, hs.i, hs.sp, hs.dt, hs.st, fun value hvalue => hs.v value (by
      rw [List.mem_singleton.1 hvalue]
      exact List.mem_cons_self)⟩
  constructor
  · intro hline
    have hv := congrArg Snapshot.v (line_injective.1 s _ hs hless hline)
    exact absurd (congrArg List.length hv) (by decide)
  · exact line_injective.2 (.ofInt 0x100E0)

end Snapshot

end Chip8
