import SqlTemplate.CommandLine.Arguments
import SqlTemplate.Proofs.Basic

/-!
# Reading arguments

The arguments of a command are read one after the other, and each step adds flags or a word to
what was given so far (`Reads`). So arguments are read the same way behind others
(`Reads.append`). The command that runs a query has all flags of the command that expands it,
and reads them the same way, whatever else it was given before (`Reads.run`).
-/

namespace SqlTemplate.CommandLine

/-- Reads an argument that begins with a dash, given what stands behind the dash. -/
def dashed (level : Level) (given : Given) (c : Char) (cs : List Char) :
    Except Stop (Given × Option Flag) :=
  if c == '-' then longFlag level given cs else letters level given (c :: cs)

/-- Arguments that are read, from what was given before to what is given then. -/
inductive Reads (level : Level) : Given → List String → Given → Prop where
  | done (given : Given) : Reads level given [] given
  /-- Behind two dashes alone there are no flags. -/
  | words {given final : Given} {words : List String}
      (added : words.foldlM (Given.addWord · level) given = .ok final) :
      Reads level given ("--" :: words) final
  | word {given next final : Given} {word : String} {more : List String}
      (plain : looksLikeFlag word = false) (added : given.addWord level word = .ok next)
      (rest : Reads level next more final) : Reads level given (word :: more) final
  | flags {given next final : Given} {argument : String} {more : List String} {c : Char}
      {cs : List Char} (isDashed : argument.toList = '-' :: c :: cs) (other : c = '-' → cs ≠ [])
      (read : dashed level given c cs = .ok (next, none)) (rest : Reads level next more final) :
      Reads level given (argument :: more) final
  /-- The last flag of the argument takes its value from the next one. -/
  | value {given next after final : Given} {argument value : String} {more : List String}
      {c : Char} {cs : List Char} {flag : Flag} (isDashed : argument.toList = '-' :: c :: cs)
      (other : c = '-' → cs ≠ []) (read : dashed level given c cs = .ok (next, some flag))
      (plain : looksLikeFlag value = false) (added : next.addFlag flag (some value) = .ok after)
      (rest : Reads level after more final) : Reads level given (argument :: value :: more) final

theorem nextValue_eq_ok_iff {arguments rest : List String} {value : String} :
    nextValue arguments = .ok (value, rest) ↔
      arguments = value :: rest ∧ looksLikeFlag value = false := by
  cases arguments with
  | nil => simp [nextValue]
  | cons argument more =>
    rw [nextValue]
    split
    · next flag =>
      constructor
      · rintro ⟨⟩
      · rintro ⟨same, plain⟩
        rw [List.cons.injEq] at same
        simp [same.1, plain] at flag
    · next plain =>
      rw [Bool.not_eq_true] at plain
      constructor
      · rintro ⟨⟩
        exact ⟨rfl, plain⟩
      · rintro ⟨⟨⟩, _⟩
        rfl

theorem Reads.of_arguments {level : Level} {given final : Given} {words : List String}
    (read : arguments level given words = .ok final) : Reads level given words final := by
  fun_induction arguments level given words with
  | case1 given =>
    obtain rfl := Except.ok.inj read
    exact .done given
  | case2 given argument more two =>
    have : argument = "--" := String.toList_inj.mp two
    rw [this]
    exact .words read
  | case4 given argument more c cs other isDashed next first ih =>
    exact .flags isDashed other (by simpa [dashed] using first) (ih read)
  | case7 given argument more c cs other isDashed next flag first value rest taken _ after added
      ih =>
    obtain ⟨rfl, plain⟩ := nextValue_eq_ok_iff.mp taken
    exact .value isDashed other (by simpa [dashed] using first) plain added (ih read)
  | case9 given argument more next added noWord noFlag ih =>
    refine .word ?_ added (ih read)
    unfold looksLikeFlag
    split
    · next c cs isDashed => exact (noFlag _ _ isDashed).elim
    · rfl
  | case3 | case5 | case6 | case8 => cases read

/-- A flag that is left over takes its value from the next argument. -/
def withValue (given : Given) (more : List String) : Option Flag → Except Stop (Given × List String)
  | none => .ok (given, more)
  | some flag => do
    let (value, rest) ← nextValue more
    return (← given.addFlag flag (some value), rest)

theorem arguments_dashed {level : Level} {given : Given} {argument : String} {more : List String}
    {c : Char} {cs : List Char} (isDashed : argument.toList = '-' :: c :: cs)
    (other : c = '-' → cs ≠ []) :
    arguments level given (argument :: more) =
      (dashed level given c cs).bind fun (given, left) =>
        (withValue given more left).bind fun (given, rest) => arguments level given rest := by
  rw [arguments, isDashed]
  split
  · next two =>
    obtain ⟨rfl, rfl⟩ : c = '-' ∧ cs = [] := by simpa using two
    exact absurd rfl (other rfl)
  · next c' cs' _ same =>
    obtain ⟨rfl, rfl⟩ : c = c' ∧ cs = cs' := by simpa using same
    unfold dashed
    generalize (if c == '-' then longFlag level given cs else letters level given (c :: cs)) = read
    rcases read with stop | ⟨given, _ | flag⟩
    · rfl
    · rfl
    · dsimp only [withValue, bind, Except.bind]
      split
      · next stop taken => simp only [taken]
      · next value rest taken =>
        simp only [taken]
        cases given.addFlag flag (some value) <;> rfl
  · next noWord noFlag => exact (noFlag c cs rfl).elim

theorem Reads.arguments_eq {level : Level} {given final : Given} {words : List String}
    (reads : Reads level given words final) : arguments level given words = .ok final := by
  induction reads with
  | done given => rw [arguments]
  | words added =>
    rw [arguments]
    exact added
  | @word given next final word more plain added rest ih =>
    rw [arguments]
    split
    · next two => simp [looksLikeFlag, two] at plain
    · next c cs _ isDashed => simp [looksLikeFlag, isDashed] at plain
    · rw [added]
      exact ih
  | @flags given next final argument more c cs isDashed other read rest ih =>
    rw [arguments_dashed isDashed other, read]
    exact ih
  | @value given next after final argument value more c cs flag isDashed other read plain added rest
      ih =>
    have taken : nextValue (value :: more) = .ok (value, more) :=
      nextValue_eq_ok_iff.mpr ⟨rfl, plain⟩
    have given : withValue next (value :: more) (some flag) = .ok (after, more) := by
      simp [withValue, taken, added, bind, Except.bind, pure, Except.pure]
    rw [arguments_dashed isDashed other, read]
    simp only [Except.bind, given]
    exact ih

theorem arguments_eq_ok_iff {level : Level} {given final : Given} {words : List String} :
    arguments level given words = .ok final ↔ Reads level given words final :=
  ⟨.of_arguments, Reads.arguments_eq⟩

/-- Arguments are read behind others, unless those end the flags. -/
theorem Reads.append {level : Level} {given middle final : Given} {words more : List String}
    (first : Reads level given words middle) (noEnd : "--" ∉ words)
    (second : Reads level middle more final) : Reads level given (words ++ more) final := by
  induction first with
  | done given => exact second
  | words added => exact absurd List.mem_cons_self noEnd
  | word plain added rest ih =>
    exact .word plain added (ih (fun member => noEnd (List.mem_cons_of_mem _ member)) second)
  | flags isDashed other read rest ih =>
    refine .flags isDashed other read (ih ?_ second)
    exact fun member => noEnd (List.mem_cons_of_mem _ member)
  | value isDashed other read plain added rest ih =>
    refine .value isDashed other read plain added (ih ?_ second)
    intro member
    exact noEnd (List.mem_cons_of_mem _ (List.mem_cons_of_mem _ member))

/-! ### What flags add -/

theorem Given.addFlag_eq_ok_iff {given next : Given} {flag : Flag} {value : Option String} :
    given.addFlag flag value = .ok next ↔
      flag ≠ .help ∧ flag ≠ .version ∧ (given.has flag → flag.repeats) ∧
        (∀ text ∈ value, flag.accepts text) ∧
        { given with flags := (flag, value) :: given.flags } = next := by
  have refused : value.any (!flag.accepts ·) ↔ ¬ ∀ text ∈ value, flag.accepts text := by
    cases value <;> simp
  have repeated : (given.has flag && !flag.repeats) ↔ ¬ (given.has flag → flag.repeats) := by
    simp
  unfold addFlag
  split_ifs with help version again misfit
  · simp [beq_iff_eq.mp help]
  · simp [beq_iff_eq.mp version]
  · simp only [repeated.mp again, false_and, and_false]
  · simp only [refused.mp misfit, false_and, and_false]
  · rw [beq_iff_eq] at help version
    rw [repeated, not_not] at again
    rw [refused, not_not] at misfit
    simp only [help, version, ne_eq, not_false_eq_true, true_and, Except.ok.injEq]
    exact ⟨fun same => ⟨again, misfit, same⟩, fun all => all.2.2⟩

/-- All flags are flags of a level. -/
def Given.Of (level : Level) (given : Given) : Prop := ∀ entry ∈ given.flags, entry.1 ∈ level.flags

/-- What was given, behind flags that were given before. -/
def Given.behind (given : Given) (first : List (Flag × Option String)) : Given :=
  { given with flags := given.flags ++ first }

/-- The command that runs a query has the flags of the command that expands it. -/
theorem find?_run {p : Flag → Bool} {flag : Flag} (found : Level.expand.flags.find? p = some flag) :
    Level.run.flags.find? p = some flag ∧ flag ∈ Level.expand.flags := by
  have more : Level.run.flags = Level.expand.flags ++ [.databaseUrl, .dryRun] := rfl
  refine ⟨?_, List.mem_of_find?_eq_some found⟩
  rw [more, List.find?_append, found]
  rfl

section
variable {first : List (Flag × Option String)} {given next : Given}

theorem addWord_behind {word : String} (isOf : given.Of .expand)
    (added : given.addWord .expand word = .ok next) :
    (given.behind first).addWord .run word = .ok (next.behind first) ∧ next.Of .expand := by
  unfold Given.addWord at *
  split_ifs at added with full empty
  obtain rfl := Except.ok.inj added
  refine ⟨?_, isOf⟩
  exact (if_neg full).trans (if_neg empty)

theorem addWords_behind {words : List String} (isOf : given.Of .expand)
    (added : words.foldlM (Given.addWord · .expand) given = .ok next) :
    words.foldlM (Given.addWord · .run) (given.behind first) = .ok (next.behind first) ∧
      next.Of .expand := by
  induction words generalizing given with
  | nil =>
    obtain rfl := Except.ok.inj added
    exact ⟨rfl, isOf⟩
  | cons word words ih =>
    obtain ⟨after, here, rest⟩ := Except.bind_eq_ok_iff.mp added
    obtain ⟨here, isOf⟩ := addWord_behind isOf here
    obtain ⟨rest, final⟩ := ih isOf rest
    exact ⟨Except.bind_eq_ok_iff.mpr ⟨_, here, rest⟩, final⟩

variable (other : ∀ entry ∈ first, entry.1 ∉ Level.expand.flags)
include other

/-- A flag of the command that expands a query is added behind other flags just as well. -/
theorem Given.addFlag_behind {flag : Flag} {value : Option String}
    (known : flag ∈ Level.expand.flags) (isOf : given.Of .expand)
    (added : given.addFlag flag value = .ok next) :
    (given.behind first).addFlag flag value = .ok (next.behind first) ∧ next.Of .expand := by
  obtain ⟨noHelp, noVersion, repeats, accepted, rfl⟩ := addFlag_eq_ok_iff.mp added
  constructor
  · refine addFlag_eq_ok_iff.mpr ⟨noHelp, noVersion, ?_, accepted, rfl⟩
    -- the flags in front are others, so this one is not given twice because of them
    intro has
    refine repeats ?_
    obtain ⟨entry, member, same⟩ := List.any_eq_true.mp has
    rcases List.mem_append.mp member with inside | before
    · exact List.any_eq_true.mpr ⟨entry, inside, same⟩
    · rw [beq_iff_eq] at same
      exact absurd (same ▸ known) (other entry before)
  · rintro entry member
    rcases List.mem_cons.mp member with rfl | inside
    · exact known
    · exact isOf entry inside

theorem letters_behind {cs : List Char} {left : Option Flag} (isOf : given.Of .expand)
    (read : letters .expand given cs = .ok (next, left)) :
    letters .run (given.behind first) cs = .ok (next.behind first, left) ∧ next.Of .expand ∧
      ∀ flag ∈ left, flag ∈ Level.expand.flags := by
  fun_induction letters .expand given cs with
  | case1 given =>
    obtain ⟨rfl, rfl⟩ : given = next ∧ none = left := by simpa using read
    exact ⟨rfl, isOf, by simp⟩
  | case3 given c flag found takes =>
    obtain ⟨rfl, rfl⟩ : given = next ∧ some flag = left := by simpa using read
    obtain ⟨found, known⟩ := find?_run found
    refine ⟨?_, isOf, by simpa using known⟩
    simp only [letters, found, takes, if_true]
  | case4 given c flag found takes cs some value =>
    obtain ⟨found, known⟩ := find?_run found
    obtain ⟨after, added, result⟩ := Except.map_eq_ok_iff.mp read
    obtain ⟨rfl, rfl⟩ : after = next ∧ none = left := by simpa using result
    obtain ⟨added, isOf⟩ := Given.addFlag_behind other known isOf added
    refine ⟨?_, isOf, by simp⟩
    cases cs with
    | nil => exact (some rfl).elim
    | cons d cs =>
      simp only [letters, found, takes, if_true]
      exact congrArg (Except.map (·, none)) added
  | case5 given c cs flag found takes after added ih =>
    obtain ⟨found, known⟩ := find?_run found
    obtain ⟨added, isOf⟩ := Given.addFlag_behind other known isOf added
    obtain ⟨again, rest⟩ := ih isOf read
    refine ⟨?_, rest⟩
    simp only [letters, found, takes, added]
    exact again
  | case2 | case6 => cases read

theorem longFlag_behind {text : List Char} {left : Option Flag} (isOf : given.Of .expand)
    (read : longFlag .expand given text = .ok (next, left)) :
    longFlag .run (given.behind first) text = .ok (next.behind first, left) ∧ next.Of .expand ∧
      ∀ flag ∈ left, flag ∈ Level.expand.flags := by
  simp only [longFlag] at read ⊢
  generalize (text.dropWhile (· != '=')).tail? = attached at read ⊢
  split at read
  · cases read
  · next flag found =>
    obtain ⟨found, known⟩ := find?_run found
    rw [found]
    split at read
    · next takes =>
      obtain ⟨rfl, rfl⟩ : given = next ∧ some flag = left := by simpa using read
      refine ⟨?_, isOf, by simpa using known⟩
      simp only [takes]
    · cases read
    · next attached bare absent =>
      obtain ⟨after, added, result⟩ := Except.map_eq_ok_iff.mp read
      obtain ⟨rfl, rfl⟩ : after = next ∧ none = left := by simpa using result
      obtain ⟨added, isOf⟩ := Given.addFlag_behind other known isOf added
      refine ⟨?_, isOf, by simp⟩
      dsimp only
      split
      · exact (bare ‹_› rfl).elim
      · exact (absent _ ‹_› rfl).elim
      · exact congrArg (Except.map (·, none)) added

theorem dashed_behind {c : Char} {cs : List Char} {left : Option Flag} (isOf : given.Of .expand)
    (read : dashed .expand given c cs = .ok (next, left)) :
    dashed .run (given.behind first) c cs = .ok (next.behind first, left) ∧ next.Of .expand ∧
      ∀ flag ∈ left, flag ∈ Level.expand.flags := by
  unfold dashed at *
  split at read
  · next long =>
    rw [if_pos long]
    exact longFlag_behind other isOf read
  · next short =>
    rw [if_neg short]
    exact letters_behind other isOf read

/-- What the command that expands a query reads, the command that runs it reads too, and the
same behind flags that the other does not have. -/
theorem Reads.run {words : List String} (isOf : given.Of .expand)
    (reads : Reads .expand given words next) :
    Reads .run (given.behind first) words (next.behind first) ∧ next.Of .expand := by
  induction reads with
  | done given => exact ⟨.done _, isOf⟩
  | words added =>
    obtain ⟨added, final⟩ := addWords_behind isOf added
    exact ⟨.words added, final⟩
  | word plain added rest ih =>
    obtain ⟨added, isOf⟩ := addWord_behind isOf added
    obtain ⟨rest, final⟩ := ih isOf
    exact ⟨.word plain added rest, final⟩
  | flags isDashed two read rest ih =>
    obtain ⟨read, isOf, _⟩ := dashed_behind other isOf read
    obtain ⟨rest, final⟩ := ih isOf
    exact ⟨.flags isDashed two read rest, final⟩
  | value isDashed two read plain added rest ih =>
    -- the flag that is left over is one of the level, too
    obtain ⟨read, isOf, known⟩ := dashed_behind other isOf read
    obtain ⟨added, isOf⟩ := Given.addFlag_behind other (known _ rfl) isOf added
    obtain ⟨rest, final⟩ := ih isOf
    exact ⟨.value isDashed two read plain added rest, final⟩

end

/-! ### Commands -/

/-- A command is given by its name, and then by arguments that are read at its level. -/
theorem ofArguments?_eq_invoke_iff {name : String} {level : Level}
    (named : Level.ofName? name = some level) {words : List String} {invocation : Invocation} :
    Request.ofArguments? (name :: words) = some (.invoke invocation) ↔
      ∃ given command, Reads level {} words given ∧ level.command? given = some command ∧
        ⟨given.has .verbose, given.has .plain, command⟩ = invocation := by
  have noDash : ∀ cs, name.toList ≠ '-' :: cs := by
    unfold Level.ofName? at named
    split at named <;> simp_all
  have isCommand : request {} (name :: words) = commandRequest {} name words := by
    rw [request]
    split
    · next two => exact (noDash _ two).elim
    · next isDashed => exact (noDash _ isDashed).elim
    · rfl
  simp only [← arguments_eq_ok_iff]
  unfold Request.ofArguments?
  rw [isCommand, commandRequest, named]
  dsimp only [bind, Except.bind]
  cases read : arguments level {} words with
  | error stop => cases stop <;> simp
  | ok given =>
    cases isGiven : level.command? given with
    | none => simp [isGiven, throw, throwThe, MonadExceptOf.throw]
    | some command => simp [isGiven, pure, Except.pure, Given.has]

end SqlTemplate.CommandLine
