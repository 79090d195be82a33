import Chip8.CommandLine.Screenshot
import Chip8.Proofs.Config

/-!
# Flags in place of variables

Three settings of the screenshot command have a flag beside their variable (`Setting.flag?`).  From
its flag a setting takes the texts that it accepts from its variable, the error mode only those
without capitals (`Setting.TakesFlag`).  Given such a text, the command runs as it does without the
flag and with the variable set to the text; given any other, it runs as it does without the flag
(`session_flag`).  So the name of an error mode in capitals means something as a variable and
nothing as a flag (`config_flag_capitals`).
-/

namespace Chip8

namespace Setting

/-- The flag of a setting, where it has one. -/
def flag? : Setting → Option String
  | instructionsPerFrame => some "ipf"
  | errorMode => some "onCpuError"
  | seed => some "seed"
  | traceEvery | debug => none

/-- The texts that a setting takes from its flag. -/
def TakesFlag (text : String) (s : Setting) : Prop :=
  s.Accepts text ∧ (s = errorMode → Text.lower text.toList = text.toList)

end Setting

namespace CommandLine

/-! ### One flag among others -/

/-- The argument that gives a flag a text. -/
def flagArgument (flag text : String) : String := "--" ++ flag ++ "=" ++ text

/-- A text that can be given to a flag: it does not end a line. -/
def OnOneLine (text : String) : Prop := ∀ c ∈ text.toList, endsLine c = false

instance (text : String) : Decidable (OnOneLine text) := List.decidableBAll _ text.toList

/-- No argument gives the flag a text. -/
def WithoutFlag (flag : String) (args : List String) : Prop :=
  ∀ arg ∈ args, ∀ entry ∈ valueFlag? arg, entry.1 ≠ flag

instance (flag : String) (args : List String) : Decidable (WithoutFlag flag args) :=
  inferInstanceAs (Decidable (∀ arg ∈ args, ∀ entry ∈ valueFlag? arg, _))

theorem valueFlag?_flagArgument {flag text : String} (hflag : flag ≠ "") (hname : '=' ∉ flag.toList)
    (htext : OnOneLine text) : valueFlag? (flagArgument flag text) = some (flag, .text text) := by
  have hchars : (flagArgument flag text).toList =
      '-' :: '-' :: (flag.toList ++ '=' :: text.toList) := by
    simp [flagArgument, String.toList_append]
  have hall : ∀ c ∈ flag.toList, decide (c ≠ '=') = true := fun c hc =>
    decide_eq_true fun h => hname (h ▸ hc)
  have htake : (flag.toList ++ '=' :: text.toList).takeWhile (· ≠ '=') = flag.toList := by
    rw [List.takeWhile_append_of_pos hall]
    simp
  have hdrop : (flag.toList ++ '=' :: text.toList).dropWhile (· ≠ '=') = '=' :: text.toList := by
    rw [List.dropWhile_append_of_pos hall]
    simp
  have hline : text.toList.any endsLine = false := by
    simpa [OnOneLine] using htext
  obtain ⟨c, name, hcons⟩ := List.exists_cons_of_ne_nil (mt String.toList_eq_nil_iff.1 hflag)
  -- The name goes up to the first `=`, and the text is all that follows, further `=` included.
  unfold valueFlag?
  simp only [hchars, htake, hdrop]
  simp only [hcons, hline, if_neg Bool.false_ne_true, String.ofList_toList]
  rw [← hcons, String.ofList_toList]

namespace Flags

section

variable {flag text : String} {before after : List String}

theorem lookup_eq_none_of_withoutFlag {args : List String} (h : WithoutFlag flag args) :
    (ofValues args).reverse.lookup flag = none := by
  rw [List.lookup_eq_none_iff]
  intro entry hentry
  obtain ⟨arg, harg, hvalue⟩ := List.mem_filterMap.1 (List.mem_reverse.1 hentry)
  exact bne_iff_ne.2 (h arg harg entry hvalue).symm

theorem text?_of_withoutFlag {args : List String} (h : WithoutFlag flag args) :
    (ofValues args).text? flag = none := by
  rw [text?, value?, lookup_eq_none_of_withoutFlag h]

theorem reverse_ofValues_insert {arg : String} {entry : String × FlagValue}
    (harg : valueFlag? arg = some entry) :
    (ofValues (before ++ arg :: after)).reverse =
      (ofValues after).reverse ++ entry :: (ofValues before).reverse := by
  rw [ofValues, List.filterMap_append, List.filterMap_cons_some harg, List.reverse_append,
    List.reverse_cons, List.append_assoc]
  rfl

/-- The first flags give a flag a text, and are otherwise the second, which do not give it. -/
structure Gives (flag text : String) (flags' flags : Flags) : Prop where
  given : flags'.text? flag = some text
  missing : flags.text? flag = none
  others : ∀ other, other ≠ flag → flags'.text? other = flags.text? other

/-- The flag of an argument has its text, unless it is given again. -/
theorem text?_insert (harg : valueFlag? (flagArgument flag text) = some (flag, .text text))
    (hafter : WithoutFlag flag after) :
    (ofValues (before ++ flagArgument flag text :: after)).text? flag = some text := by
  rw [text?, value?, reverse_ofValues_insert harg, List.lookup_append,
    lookup_eq_none_of_withoutFlag hafter, Option.none_or, List.lookup_cons_self]

/-- The other flags are as they are without the argument. -/
theorem text?_insert_of_ne (harg : valueFlag? (flagArgument flag text) = some (flag, .text text))
    {other : String} (hne : other ≠ flag) :
    (ofValues (before ++ flagArgument flag text :: after)).text? other =
      (ofValues (before ++ after)).text? other := by
  have hrest : (ofValues (before ++ after)).reverse =
      (ofValues after).reverse ++ (ofValues before).reverse := by
    rw [ofValues, List.filterMap_append, List.reverse_append]
    rfl
  rw [text?, text?, value?, value?, reverse_ofValues_insert harg, hrest, List.lookup_append,
    List.lookup_append, List.lookup_cons, beq_eq_false_iff_ne.2 hne]

theorem gives_insert (hflag : flag ≠ "") (hname : '=' ∉ flag.toList) (htext : OnOneLine text)
    (hrest : WithoutFlag flag (before ++ after)) :
    Gives flag text (ofValues (before ++ flagArgument flag text :: after))
      (ofValues (before ++ after)) where
  given := by
    have hafter : WithoutFlag flag after := fun arg h => hrest arg (List.mem_append_right _ h)
    exact text?_insert (valueFlag?_flagArgument hflag hname htext) hafter
  missing := text?_of_withoutFlag hrest
  others _ hne := text?_insert_of_ne (valueFlag?_flagArgument hflag hname htext) hne

end

end Flags

namespace Screenshot

/-! ### What a run depends on -/

section

variable {args args' : List String} {env env' : Environment}

theorem unhandled_congr (h : logger env' = logger env) : unhandled env' = unhandled env := by
  funext e
  rw [unhandled, unhandled, h]

theorem conclude_congr (host : Storage.Host) (h : logger env' = logger env) :
    conclude host env' = conclude host env := by
  funext outPath scale shot
  simp only [conclude, h, unhandled_congr h]

/-- Apart from the settings, a run depends on the flags that are no settings, on the variable of the
program and on whether debug calls are wanted. -/
theorem session_congr
    (htexts : ∀ name ∈ ["rom", "out", "frames", "scale", "keys"],
      (Flags.ofValues args').text? name = (Flags.ofValues args).text? name)
    (hrom : env' "CHIP8_ROM" = env "CHIP8_ROM") (hlogger : logger env' = logger env)
    (hconfig : config env' (Flags.ofValues args') = config env (Flags.ofValues args))
    (host : Storage.Host) (unseeded : RandomSource) :
    session host args' env' unseeded = session host args env unseeded := by
  simp only [List.forall_mem_cons] at htexts
  obtain ⟨hpath, hout, hframes, hscale, hkeys, -⟩ := htexts
  have hperform (path : String) (rom : List UInt8) :
      perform host env' (Flags.ofValues args') unseeded path rom =
        perform host env (Flags.ofValues args) unseeded path rom := by
    simp only [perform, Flags.nonempty?, Flags.positive, hout, hframes, hscale, hkeys, hconfig,
      hlogger, unhandled_congr hlogger, conclude_congr host hlogger]
  simp only [session, Flags.nonempty?, hpath, hrom, hlogger, unhandled_congr hlogger, hperform]

end

/-! ### Settings from flags -/

/-- As a flag, the name of an error mode counts only as it stands. -/
theorem ofName?_eq (text : String) :
    ErrorMode.ofName? text =
      if Text.lower text.toList = text.toList then ErrorMode.ofText? text else none := by
  split
  · next hlower => rw [ErrorMode.ofText?, hlower, String.ofList_toList]
  · next hlower =>
    refine Option.eq_none_iff_forall_ne_some.2 fun mode hmode => hlower ?_
    have hname : mode.name = text := by simpa using List.find?_some hmode
    have hall : ∀ mode ∈ ErrorMode.all, Text.lower mode.name.toList = mode.name.toList := by decide
    exact hname ▸ hall mode (List.mem_of_find?_eq_some hmode)

theorem instructionsPerFrame_config (env : Environment) (flags : Flags) :
    (config env flags).instructionsPerFrame =
      ((Config.frameLength? (flags.text? "ipf")).or
        (Config.frameLength? (env "CHIP8_IPF"))).getD (.ofInt 10) := by
  rw [Option.getD_or]
  rfl

theorem errorMode_config (env : Environment) (flags : Flags) :
    (config env flags).errorMode =
      (((flags.text? "onCpuError").bind ErrorMode.ofName?).or
        ((env "CHIP8_ON_CPU_ERROR").bind ErrorMode.ofText?)).getD .raise := by
  rw [Option.getD_or]
  rfl

theorem seed?_config (env : Environment) (flags : Flags) :
    (config env flags).seed? =
      (Config.seedOf? (flags.text? "seed")).or (Config.seedOf? (env "CHIP8_SEED")) := by
  show ((Config.seedOf? (flags.text? "seed")).map some).getD (Config.seedOf? (env "CHIP8_SEED")) = _
  cases Config.seedOf? (flags.text? "seed") <;> rfl

section

variable {env env' : Environment} {flags flags' : Flags} {s : Setting} {flag text : String}

/-- A setting depends on its own variable and its own flag alone. -/
theorem same_config (hvariable : env' s.variableName = env s.variableName)
    (hflag : ∀ flag, s.flag? = some flag → flags'.text? flag = flags.text? flag) :
    s.Same (config env' flags') (config env flags) := by
  cases s
  all_goals simp only [Setting.variableName] at hvariable
  case instructionsPerFrame =>
    simp only [Setting.Same, instructionsPerFrame_config, hflag _ rfl, hvariable]
  case errorMode => simp only [Setting.Same, errorMode_config, hflag _ rfl, hvariable]
  case seed => simp only [Setting.Same, seed?_config, hflag _ rfl, hvariable]
  case traceEvery => exact Setting.same_of_eq (s := .traceEvery) hvariable
  case debug => exact Setting.same_of_eq (s := .debug) hvariable

/-- A text that a setting takes from its flag is worth as much there as in its variable. -/
theorem same_of_takesFlag (hflag : s.flag? = some flag) (htakes : s.TakesFlag text)
    (hgives : Flags.Gives flag text flags' flags) (hvariable : env' s.variableName = some text) :
    s.Same (config env flags') (config env' flags) := by
  obtain ⟨haccepts, hlower⟩ := htakes
  obtain ⟨hgiven, hnot, -⟩ := hgives
  cases s
  all_goals cases hflag
  all_goals simp only [Setting.variableName] at hvariable
  case instructionsPerFrame =>
    obtain ⟨q, hq, hle⟩ := haccepts
    simp only [Setting.Same, instructionsPerFrame_config, hgiven, hnot, hvariable,
      Config.frameLength?_eq_some_iff.2 ⟨q, hq, hle, rfl⟩]
    rfl
  case errorMode =>
    obtain ⟨mode, hmode⟩ := Option.ne_none_iff_exists'.1 fun hnone =>
      (ErrorMode.ofText?_eq_none_iff text).1 hnone haccepts
    simp only [Setting.Same, errorMode_config, hgiven, hnot, hvariable, Option.bind_some,
      ofName?_eq, if_pos (hlower rfl), hmode]
    rfl
  case seed =>
    obtain ⟨q, hq⟩ := haccepts
    simp only [Setting.Same, seed?_config, hgiven, hnot, hvariable, Config.seedOf?, hq]
    rfl

/-- A text that a setting does not take from its flag counts as none. -/
theorem same_of_not_takesFlag (hflag : s.flag? = some flag) (htakes : ¬ s.TakesFlag text)
    (hgives : Flags.Gives flag text flags' flags) :
    s.Same (config env flags') (config env flags) := by
  obtain ⟨hgiven, hnot, -⟩ := hgives
  cases s
  all_goals cases hflag
  case instructionsPerFrame =>
    have hnone : Config.frameLength? (some text) = none :=
      Config.frameLength?_eq_none fun h => htakes ⟨h, fun hs => absurd hs (by decide)⟩
    simp only [Setting.Same, instructionsPerFrame_config, hgiven, hnot, hnone]
    rfl
  case errorMode =>
    have hnone : ErrorMode.ofName? text = none := by
      rw [ofName?_eq]
      split
      · next hlower =>
        exact (ErrorMode.ofText?_eq_none_iff text).2 fun h => htakes ⟨h, fun _ => hlower⟩
      · rfl
    simp only [Setting.Same, errorMode_config, hgiven, hnot, Option.bind_some, hnone,
      Option.bind_none]
  case seed =>
    have hnone : Config.rational? (some text) = none :=
      Config.rational?_eq_none fun h => htakes ⟨h, fun hs => absurd hs (by decide)⟩
    simp only [Setting.Same, seed?_config, hgiven, hnot, Config.seedOf?, hnone]
    rfl

theorem flag?_injective {s t : Setting} {flag : String} (hs : s.flag? = some flag)
    (ht : t.flag? = some flag) : s = t := by
  cases s <;> cases hs <;> cases t <;> first | rfl | exact absurd ht (by decide)

/-- A given flag is read for its own setting alone. -/
theorem same_others (hflag : s.flag? = some flag) (hgives : Flags.Gives flag text flags' flags)
    {t : Setting} (hts : t ≠ s) (hvariable : env' t.variableName = env t.variableName) :
    t.Same (config env' flags') (config env flags) := by
  refine same_config hvariable fun other hother => hgives.others other ?_
  rintro rfl
  exact hts (flag?_injective hother hflag)

theorem config_of_takesFlag (hflag : s.flag? = some flag) (htakes : s.TakesFlag text)
    (hgives : Flags.Gives flag text flags' flags) :
    config env flags' = config (env.assign s.variableName (some text)) flags := by
  refine Setting.eq_of_same fun t => ?_
  by_cases hts : t = s
  · subst hts
    exact same_of_takesFlag hflag htakes hgives (Function.update_self ..)
  · have hname : t.variableName ≠ s.variableName := fun h => hts (Setting.variableName_injective h)
    exact same_others hflag hgives hts (Function.update_of_ne hname ..).symm

theorem config_of_not_takesFlag (hflag : s.flag? = some flag) (htakes : ¬ s.TakesFlag text)
    (hgives : Flags.Gives flag text flags' flags) : config env flags' = config env flags := by
  refine Setting.eq_of_same fun t => ?_
  by_cases hts : t = s
  · subst hts
    exact same_of_not_takesFlag hflag htakes hgives
  · exact same_others hflag hgives hts rfl

end

/-! ### The headline -/

/-- The flag of a setting has a name as flags have, which is that of no other flag, and the command
reads its variable for nothing else. -/
theorem flag?_spec {s : Setting} {flag : String} (h : s.flag? = some flag) :
    (flag ≠ "" ∧ '=' ∉ flag.toList) ∧ flag ∉ ["rom", "out", "frames", "scale", "keys"] ∧
      "CHIP8_ROM" ≠ s.variableName ∧ "CHIP8_DEBUG" ≠ s.variableName := by
  cases s <;> cases h <;> decide

theorem logger_assign {env : Environment} {name : String} (h : "CHIP8_DEBUG" ≠ name)
    (text? : Option String) : logger (env.assign name text?) = logger env := by
  have hsame : (env.assign name text?) "CHIP8_DEBUG" = env "CHIP8_DEBUG" :=
    Function.update_of_ne h ..
  rw [logger, logger, Environment.flag, Environment.flag, hsame]

/-- A text that a setting takes from its flag makes the command run as the same text in the variable
of the setting does without the flag, whatever the variable was before.  Any other text makes it run
as if the flag were not given. -/
theorem session_flag {s : Setting} {flag text : String} (hflag : s.flag? = some flag)
    (htext : OnOneLine text) {before after : List String}
    (hrest : WithoutFlag flag (before ++ after)) (host : Storage.Host) (env : Environment)
    (unseeded : RandomSource) :
    let given := before ++ flagArgument flag text :: after
    let rest := before ++ after
    let env' := env.assign s.variableName (some text)
    (s.TakesFlag text →
      config env (Flags.ofValues given) = config env' (Flags.ofValues rest) ∧
        session host given env unseeded = session host rest env' unseeded) ∧
    (¬ s.TakesFlag text →
      config env (Flags.ofValues given) = config env (Flags.ofValues rest) ∧
        session host given env unseeded = session host rest env unseeded) := by
  intro given rest env'
  obtain ⟨⟨hne, hname⟩, hother, hrom, hdebug⟩ := flag?_spec hflag
  have hgives : Flags.Gives flag text (Flags.ofValues given) (Flags.ofValues rest) :=
    Flags.gives_insert hne hname htext hrest
  have htexts : ∀ name ∈ ["rom", "out", "frames", "scale", "keys"],
      (Flags.ofValues given).text? name = (Flags.ofValues rest).text? name :=
    fun name h => hgives.others name fun heq => hother (heq ▸ h)
  constructor
  · intro htakes
    have hconfig : config env (Flags.ofValues given) = config env' (Flags.ofValues rest) :=
      config_of_takesFlag hflag htakes hgives
    have hromSame : env' "CHIP8_ROM" = env "CHIP8_ROM" := Function.update_of_ne hrom ..
    have hloggerSame : logger env' = logger env := logger_assign hdebug _
    exact ⟨hconfig, session_congr htexts hromSame.symm hloggerSame.symm hconfig host unseeded⟩
  · intro htakes
    have hconfig : config env (Flags.ofValues given) = config env (Flags.ofValues rest) :=
      config_of_not_takesFlag hflag htakes hgives
    exact ⟨hconfig, session_congr htexts rfl rfl hconfig host unseeded⟩

/-- A count in base sixteen between other flags is taken, and one of a half has no effect. -/
theorem session_flag_counts :
    let env : Environment := fun _ => none
    let random : RandomSource := .replay #[] 0
    let host : Storage.Host := .upTo 0x100000000
    Setting.instructionsPerFrame.TakesFlag "0x20" ∧
      ¬ Setting.instructionsPerFrame.TakesFlag "0.5" ∧
      session host ["--rom=a.ch8", "--ipf=0x20", "--scale=2"] env random =
        session host ["--rom=a.ch8", "--scale=2"] (env.assign "CHIP8_IPF" (some "0x20")) random ∧
      session host ["--rom=a.ch8", "--ipf=0.5", "--scale=2"] env random =
        session host ["--rom=a.ch8", "--scale=2"] env random := by
  intro env random host
  have hwhole : Setting.instructionsPerFrame.TakesFlag "0x20" :=
    ⟨⟨32, by decide +kernel, by decide +kernel⟩, fun hs => absurd hs (by decide)⟩
  have hhalf : ¬ Setting.instructionsPerFrame.TakesFlag "0.5" := by
    rintro ⟨⟨q, hq, hle⟩, -⟩
    rw [show Config.rational? (some "0.5") = some (1 / 2) by decide +kernel] at hq
    obtain rfl := Option.some.inj hq
    exact absurd hle (by decide +kernel)
  have hrest : WithoutFlag "ipf" (["--rom=a.ch8"] ++ ["--scale=2"]) := by decide +kernel
  have htaken := session_flag (s := .instructionsPerFrame) rfl
    (show OnOneLine "0x20" by decide) hrest host env random
  have hrefused := session_flag (s := .instructionsPerFrame) rfl
    (show OnOneLine "0.5" by decide) hrest host env random
  exact ⟨hwhole, hhalf, (htaken.1 hwhole).2, (hrefused.2 hhalf).2⟩

/-- The variable accepts the name of an error mode in capitals, and the flag has no effect. -/
theorem config_flag_capitals :
    let env : Environment := fun _ => none
    Setting.errorMode.flag? = some "onCpuError" ∧ Setting.errorMode.Accepts "RECORD" ∧
      (config env (Flags.ofValues [flagArgument "onCpuError" "RECORD"])).errorMode = .raise ∧
      (config (env.assign "CHIP8_ON_CPU_ERROR" (some "RECORD")) (Flags.ofValues [])).errorMode =
        .record := by
  exact ⟨rfl, ⟨.record, by decide, by decide⟩, by decide +kernel, by decide +kernel⟩

end Screenshot

end CommandLine

end Chip8
