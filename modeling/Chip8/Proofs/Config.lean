import Chip8.Scheduler
import Mathlib.Data.Rat.Floor
import Mathlib.Logic.Function.Basic

/-!
# Settings from the environment

Each setting has a variable (`Setting.variableName`) and accepts some texts of it
(`Setting.Accepts`): numbers of its range, or words in any letter case.  A text that is accepted is
heeded (`Setting.Heeds`), and one that is not counts as if the variable were not set.  No setting
depends on the variable of another.

So the settings make sense whatever the environment says (`Config.Sane`), and a scheduler takes the
counts as they are (`Scheduler.new_of_sane`).  The headline is `Config.load_environment`.
-/

namespace Chip8

/-- The environment with a variable set to a text, or not set at all. -/
def Environment.assign (env : Environment) (name : String) (text? : Option String) : Environment :=
  Function.update env name text?

/-- The settings. -/
inductive Setting where
  | instructionsPerFrame
  | errorMode
  | traceEvery
  | seed
  | debug
deriving DecidableEq

namespace Setting

/-- The variable of a setting. -/
def variableName : Setting → String
  | instructionsPerFrame => "CHIP8_IPF"
  | errorMode => "CHIP8_ON_CPU_ERROR"
  | traceEvery => "CHIP8_TRACE_EVERY"
  | seed => "CHIP8_SEED"
  | debug => "CHIP8_DEBUG"

/-- The texts that a setting accepts. -/
def Accepts (text : String) : Setting → Prop
  | instructionsPerFrame => ∃ q, Config.rational? (some text) = some q ∧ 1 ≤ q
  | errorMode => ∃ mode ∈ ErrorMode.all, Text.lower text.toList = mode.name.toList
  | traceEvery => ∃ q, Config.rational? (some text) = some q ∧ 0 < q
  | seed => ∃ q, Config.rational? (some text) = some q
  | debug => Text.lower text.toList ∈ ["1".toList, "true".toList]

/-- The setting is what a text says. -/
def Heeds (text : String) (c : Config) : Setting → Prop
  | instructionsPerFrame =>
    ∀ q ∈ Config.rational? (some text), c.instructionsPerFrame = .ofInt q.floor
  | errorMode => c.errorMode.name.toList = Text.lower text.toList
  | traceEvery => ∀ q ∈ Config.rational? (some text), c.traceEvery = .ofInt q.floor
  | seed => ∀ q ∈ Config.rational? (some text),
    c.seed? = some (.ofInt ((Number.rat q).truncate % 2 ^ 32))
  | debug => c.debug = true

/-- The setting is the same in two configurations. -/
def Same (c d : Config) : Setting → Prop
  | instructionsPerFrame => c.instructionsPerFrame = d.instructionsPerFrame
  | errorMode => c.errorMode = d.errorMode
  | traceEvery => c.traceEvery = d.traceEvery
  | seed => c.seed? = d.seed?
  | debug => c.debug = d.debug

theorem variableName_injective : Function.Injective variableName := by
  intro s t h
  cases s <;> cases t <;> first | rfl | exact absurd h (by decide)

end Setting

namespace Config

/-- The settings make sense: counts that can be used, a seed of 32 bits, and one of the error modes
of their own. -/
structure Sane (c : Config) : Prop where
  instructionsPerFrame : ∃ n : Int, 1 ≤ n ∧ c.instructionsPerFrame = .ofInt n
  traceEvery : ∃ n : Int, 0 ≤ n ∧ c.traceEvery = .ofInt n
  seed? : ∀ seed ∈ c.seed?, ∃ n : Int, 0 ≤ n ∧ n < 2 ^ 32 ∧ seed = .ofInt n
  errorMode : c.errorMode ∈ ErrorMode.all

/-- The second settings are the first with just those replaced that a host overrides. -/
structure Replaces (o : Overrides) (c d : Config) : Prop where
  instructionsPerFrame :
    d.instructionsPerFrame = o.instructionsPerFrame?.getD c.instructionsPerFrame
  errorMode : d.errorMode = o.errorMode?.getD c.errorMode
  traceEvery : d.traceEvery = o.traceEvery?.getD c.traceEvery
  seed? : d.seed? = o.seed?.getD c.seed?
  debug : d.debug = o.debug?.getD c.debug

/-! ### Texts and what they are taken for -/

/-- The integer part of a number that is in range, as counts are read. -/
theorem floor_eq_some_iff {P : Rat → Prop} [DecidablePred P] {q? : Option Rat} {v : Number} :
    ((q?.filter fun q => P q).map fun q => .ofInt q.floor) = some v ↔
      ∃ q, q? = some q ∧ P q ∧ v = .ofInt q.floor := by
  rw [Option.map_eq_some_iff]
  constructor
  · rintro ⟨q, hq, rfl⟩
    obtain ⟨hread, hrange⟩ := Option.filter_eq_some_iff.1 hq
    exact ⟨q, hread, of_decide_eq_true hrange, rfl⟩
  · rintro ⟨q, hread, hrange, rfl⟩
    exact ⟨q, Option.filter_eq_some_iff.2 ⟨hread, decide_eq_true hrange⟩, rfl⟩

theorem frameLength?_eq_some_iff {text? : Option String} {v : Number} :
    frameLength? text? = some v ↔ ∃ q, rational? text? = some q ∧ 1 ≤ q ∧ v = .ofInt q.floor :=
  floor_eq_some_iff

theorem traceDistance?_eq_some_iff {text? : Option String} {v : Number} :
    traceDistance? text? = some v ↔ ∃ q, rational? text? = some q ∧ 0 < q ∧ v = .ofInt q.floor :=
  floor_eq_some_iff

theorem frameLength?_eq_none {text : String}
    (h : ¬ Setting.instructionsPerFrame.Accepts text) : frameLength? (some text) = none := by
  refine Option.eq_none_iff_forall_ne_some.2 fun v hv => h ?_
  obtain ⟨q, hq, hle, -⟩ := frameLength?_eq_some_iff.1 hv
  exact ⟨q, hq, hle⟩

theorem traceDistance?_eq_none {text : String} (h : ¬ Setting.traceEvery.Accepts text) :
    traceDistance? (some text) = none := by
  refine Option.eq_none_iff_forall_ne_some.2 fun v hv => h ?_
  obtain ⟨q, hq, hpos, -⟩ := traceDistance?_eq_some_iff.1 hv
  exact ⟨q, hq, hpos⟩

theorem rational?_eq_none {text : String} (h : ¬ Setting.seed.Accepts text) :
    rational? (some text) = none :=
  Option.eq_none_iff_forall_ne_some.2 fun q hq => h ⟨q, hq⟩

/-- The low 32 bits of a number are its integer part modulo `2 ^ 32`. -/
theorem toNat_toUInt32 (v : Number) : (v.toUInt32.toNat : Int) = v.truncate % 2 ^ 32 := by
  rw [Number.toUInt32, UInt32.ofInt, UInt32.toNat_ofNat']
  omega

theorem seedOf?_eq {text? : Option String} : seedOf? text? =
    (rational? text?).map fun q => .ofInt ((Number.rat q).truncate % 2 ^ 32) := by
  simp only [seedOf?, toNat_toUInt32]

end Config

namespace ErrorMode

theorem ofText?_eq_some {text : String} {mode : ErrorMode} (h : ofText? text = some mode) :
    mode ∈ all ∧ Text.lower text.toList = mode.name.toList := by
  rw [ofText?, ofName?] at h
  have hname : mode.name = String.ofList (Text.lower text.toList) := by
    simpa using List.find?_some h
  rw [hname, String.toList_ofList]
  exact ⟨List.mem_of_find?_eq_some h, rfl⟩

/-- The texts that are taken for no error mode are those that no mode has as its name, up to letter
case. -/
theorem ofText?_eq_none_iff (text : String) :
    ofText? text = none ↔ ¬ ∃ mode ∈ all, Text.lower text.toList = mode.name.toList := by
  constructor
  · rintro h ⟨mode, hmode, hname⟩
    refine List.find?_eq_none.1 h mode hmode ?_
    rw [hname, String.ofList_toList, beq_self_eq_true]
  · intro h
    refine Option.eq_none_iff_forall_ne_some.2 fun mode hmode => h ?_
    exact ⟨mode, ofText?_eq_some hmode⟩

end ErrorMode

theorem Environment.flag_eq_true_iff (env : Environment) (name : String) :
    env.flag name = true ↔
      Text.lower ((env name).getD "").toList ∈ ["1".toList, "true".toList] := by
  simp [flag]

namespace Setting

open Config

variable {env env' : Environment} {s : Setting} {text : String}

/-! ### One variable -/

/-- A setting depends on its own variable alone. -/
theorem same_of_eq (h : env' s.variableName = env s.variableName) :
    Same (load env' {}) (load env {}) s := by
  cases s with
  | instructionsPerFrame =>
    exact congrArg (fun text? => (frameLength? text?).getD standard.instructionsPerFrame) h
  | errorMode =>
    exact congrArg (fun text? => (text?.bind ErrorMode.ofText?).getD standard.errorMode) h
  | traceEvery =>
    exact congrArg (fun text? => (traceDistance? text?).getD standard.traceEvery) h
  | seed => exact congrArg seedOf? h
  | debug =>
    show env'.flag "CHIP8_DEBUG" = env.flag "CHIP8_DEBUG"
    rw [Bool.eq_iff_iff, Environment.flag_eq_true_iff, Environment.flag_eq_true_iff]
    exact iff_of_eq (congrArg (fun text? : Option String =>
      Text.lower (text?.getD "").toList ∈ ["1".toList, "true".toList]) h)

/-- A text that a setting does not accept counts as none. -/
theorem same_of_not_accepts (htext : env s.variableName = some text) (hnot : ¬ Accepts text s)
    (hunset : env' s.variableName = none) : Same (load env' {}) (load env {}) s := by
  cases s
  all_goals simp only [variableName] at htext hunset
  case instructionsPerFrame =>
    simp only [Same, load, override, ofEnvironment, htext, hunset, frameLength?_eq_none hnot]
    rfl
  case errorMode =>
    have hnone : ErrorMode.ofText? text = none := (ErrorMode.ofText?_eq_none_iff text).2 hnot
    simp only [Same, load, override, ofEnvironment, htext, hunset, Option.bind_some, hnone,
      Option.bind_none]
  case traceEvery =>
    simp only [Same, load, override, ofEnvironment, htext, hunset, traceDistance?_eq_none hnot]
    rfl
  case seed =>
    simp only [Same, load, override, ofEnvironment, htext, hunset, seedOf?, rational?_eq_none hnot]
    rfl
  case debug =>
    -- A variable that is not set is read as the empty text, which is not accepted.
    have hoff (env : Environment) (h : Text.lower ((env "CHIP8_DEBUG").getD "").toList ∉
        ["1".toList, "true".toList]) : env.flag "CHIP8_DEBUG" = false := by
      rw [← Bool.not_eq_true, Environment.flag_eq_true_iff]
      exact h
    show env'.flag "CHIP8_DEBUG" = env.flag "CHIP8_DEBUG"
    rw [hoff env (by rw [htext]; exact hnot), hoff env' (by rw [hunset]; decide)]

/-- A text that a setting accepts is heeded. -/
theorem heeds_of_accepts (htext : env s.variableName = some text) (haccepts : Accepts text s) :
    Heeds text (load env {}) s := by
  cases s
  all_goals simp only [variableName] at htext
  case instructionsPerFrame =>
    obtain ⟨q, hq, hle⟩ := haccepts
    intro r hr
    obtain rfl : q = r := Option.some.inj (hq.symm.trans hr)
    simp only [load, override, ofEnvironment, htext, frameLength?_eq_some_iff.2 ⟨q, hq, hle, rfl⟩]
    rfl
  case errorMode =>
    obtain ⟨mode, hmode⟩ := Option.ne_none_iff_exists'.1 fun hnone =>
      (ErrorMode.ofText?_eq_none_iff text).1 hnone haccepts
    simp only [Heeds, load, override, ofEnvironment, htext, Option.bind_some, hmode]
    exact (ErrorMode.ofText?_eq_some hmode).2.symm
  case traceEvery =>
    obtain ⟨q, hq, hpos⟩ := haccepts
    intro r hr
    obtain rfl : q = r := Option.some.inj (hq.symm.trans hr)
    simp only [load, override, ofEnvironment, htext,
      traceDistance?_eq_some_iff.2 ⟨q, hq, hpos, rfl⟩]
    rfl
  case seed =>
    intro q hq
    simp only [load, override, ofEnvironment, htext, seedOf?_eq, Option.mem_def.1 hq]
    rfl
  case debug =>
    show env.flag "CHIP8_DEBUG" = true
    rw [Environment.flag_eq_true_iff, htext]
    exact haccepts

/-! ### All settings -/

theorem eq_of_same {c d : Config} (h : ∀ s, Same c d s) : c = d := by
  cases c
  cases d
  rw [Config.mk.injEq]
  exact ⟨h instructionsPerFrame, h errorMode, h traceEvery, h seed, h debug⟩

theorem load_assign_none (htext : env s.variableName = some text) (hnot : ¬ Accepts text s) :
    load (env.assign s.variableName none) {} = load env {} := by
  refine eq_of_same fun t => ?_
  by_cases hts : t = s
  · subst hts
    exact same_of_not_accepts htext hnot (Function.update_self ..)
  · have hname : t.variableName ≠ s.variableName := fun h => hts (variableName_injective h)
    exact same_of_eq (Function.update_of_ne hname ..)

end Setting

namespace Config

theorem sane_load (env : Environment) : (load env {}).Sane where
  instructionsPerFrame := by
    show ∃ n : Int, 1 ≤ n ∧ (frameLength? (env "CHIP8_IPF")).getD (.ofInt 10) = .ofInt n
    cases h : frameLength? (env "CHIP8_IPF") with
    | none => exact ⟨10, by decide, rfl⟩
    | some v =>
      obtain ⟨q, -, hle, rfl⟩ := frameLength?_eq_some_iff.1 h
      exact ⟨q.floor, Rat.le_floor_iff.2 hle, rfl⟩
  traceEvery := by
    show ∃ n : Int, 0 ≤ n ∧ (traceDistance? (env "CHIP8_TRACE_EVERY")).getD (.ofInt 0) = .ofInt n
    cases h : traceDistance? (env "CHIP8_TRACE_EVERY") with
    | none => exact ⟨0, Int.le_refl 0, rfl⟩
    | some v =>
      obtain ⟨q, -, hpos, rfl⟩ := traceDistance?_eq_some_iff.1 h
      exact ⟨q.floor, Rat.le_floor_iff.2 (Rat.le_of_lt hpos), rfl⟩
  seed? seed hseed := by
    have hread : seedOf? (env "CHIP8_SEED") = some seed := hseed
    rw [seedOf?_eq] at hread
    obtain ⟨q, -, rfl⟩ := Option.map_eq_some_iff.1 hread
    exact ⟨_, Int.emod_nonneg _ (by decide), Int.emod_lt_of_pos _ (by decide), rfl⟩
  errorMode := by
    show ((env "CHIP8_ON_CPU_ERROR").bind ErrorMode.ofText?).getD .raise ∈ ErrorMode.all
    cases h : (env "CHIP8_ON_CPU_ERROR").bind ErrorMode.ofText? with
    | none => decide
    | some mode =>
      obtain ⟨text, -, hmode⟩ := Option.bind_eq_some_iff.1 h
      exact (ErrorMode.ofText?_eq_some hmode).1

theorem replaces_load (env : Environment) (o : Overrides) :
    Replaces o (load env {}) (load env o) := ⟨rfl, rfl, rfl, rfl, rfl⟩

end Config

/-- A scheduler takes the counts of settings that make sense as they are. -/
theorem Scheduler.new_of_sane {c : Config} (h : c.Sane) :
    Number.ofInt (Scheduler.new c {}).instructionsPerFrame = c.instructionsPerFrame ∧
      Number.ofInt (Scheduler.new c {}).traceEvery = c.traceEvery := by
  obtain ⟨length, hlength, hframe⟩ := h.instructionsPerFrame
  obtain ⟨distance, hdistance, htrace⟩ := h.traceEvery
  constructor
  · rw [hframe]
    refine congrArg Number.ofInt ?_
    show ((atLeast 1 c.instructionsPerFrame : Nat) : Int) = length
    rw [hframe, atLeast, Number.floor_ofInt]
    omega
  · rw [htrace]
    refine congrArg Number.ofInt ?_
    show ((atLeast 0 c.traceEvery : Nat) : Int) = distance
    rw [htrace, atLeast, Number.floor_ofInt]
    omega

/-! ### The headline -/

/-- The settings make sense in every environment.  A text that its setting accepts is heeded, any
other counts as none, and a setting depends on its own variable alone.  A scheduler without options
of its own takes the counts as they are.  A host that overrides settings replaces just those. -/
theorem Config.load_environment (env : Environment) :
    (load env {}).Sane ∧
    (∀ (s : Setting) (text : String), env s.variableName = some text →
      (s.Accepts text → s.Heeds text (load env {})) ∧
      (¬ s.Accepts text → load (env.assign s.variableName none) {} = load env {})) ∧
    (∀ (s : Setting) (env' : Environment), env' s.variableName = env s.variableName →
      s.Same (load env' {}) (load env {})) ∧
    Number.ofInt (Scheduler.new (load env {}) {}).instructionsPerFrame =
      (load env {}).instructionsPerFrame ∧
    ∀ o, Replaces o (load env {}) (load env o) := by
  have hsane := sane_load env
  refine ⟨hsane, ?_, ?_, (Scheduler.new_of_sane hsane).1, replaces_load env⟩
  · intro s text htext
    exact ⟨Setting.heeds_of_accepts htext, Setting.load_assign_none htext⟩
  · intro s env' h
    exact Setting.same_of_eq h

/-- A fraction is accepted as a count of instructions, and a negative number is none between trace
lines. -/
theorem Config.load_environment_fractional :
    let env : Environment := fun name =>
      [("CHIP8_IPF", "1.5"), ("CHIP8_TRACE_EVERY", "-3")].lookup name
    (load env {}).instructionsPerFrame = .ofInt 1 ∧
      load (env.assign "CHIP8_TRACE_EVERY" none) {} = load env {} ∧
      (load (env.assign "CHIP8_TRACE_EVERY" (some "7")) {}).instructionsPerFrame = .ofInt 1 := by
  intro env
  obtain ⟨-, htexts, hsame, -⟩ := load_environment env
  have hread : rational? (some "1.5") = some (3 / 2) := by decide +kernel
  have haccepts : Setting.instructionsPerFrame.Accepts "1.5" := ⟨3 / 2, hread, by decide +kernel⟩
  have hfloor : (3 / 2 : Rat).floor = 1 := by decide +kernel
  have hlength : (load env {}).instructionsPerFrame = .ofInt 1 :=
    hfloor ▸ (htexts .instructionsPerFrame "1.5" rfl).1 haccepts _ hread
  have hrefuses : ¬ Setting.traceEvery.Accepts "-3" := by
    rintro ⟨q, hq, hpos⟩
    rw [show rational? (some "-3") = some (-3) by decide +kernel] at hq
    obtain rfl := Option.some.inj hq
    exact absurd hpos (by decide +kernel)
  refine ⟨hlength, (htexts .traceEvery "-3" rfl).2 hrefuses, ?_⟩
  exact (hsame .instructionsPerFrame (env.assign "CHIP8_TRACE_EVERY" (some "7")) rfl).trans hlength

end Chip8
