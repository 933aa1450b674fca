import Legible.Command.Session

/-!
The grammar of render commands.

A render command is a list of parts in any order: flags, settings files with the option before each,
and one input. Reading the arguments finds those parts and nothing else, so what cannot be taken
apart in this way is an error, for which no file is read. A second look at the arguments for flags
alone finds those that the parts are, since no path can be mistaken for one.
-/

set_option autoImplicit false

namespace Legible

def Flag.text : Flag → String
  | .lineComments => "--lines"
  | .hideWarnings => "--hide-warnings"
  | .hideTimers => "--hide-timers"

namespace Command

def settingsOption : String := "--config"

theorem flag?_eq_some_iff {argument : String} {flag : Flag} :
    flag? argument = some flag ↔ argument = flag.text := by
  constructor
  · intro found
    unfold flag? at found
    split at found
    next same => cases found; exact same
    split at found
    next same => cases found; exact same
    split at found
    next same => cases found; exact same
    next => cases found
  · rintro rfl
    cases flag <;> rfl

theorem isFlagLike_text (flag : Flag) : isFlagLike flag.text := by
  cases flag <;> decide +kernel

theorem isFlagLike_settingsOption : isFlagLike settingsOption := by decide +kernel

theorem flag?_of_not_isFlagLike {argument : String} (plain : ¬ isFlagLike argument) :
    flag? argument = none := by
  cases found : flag? argument with
  | none => rfl
  | some flag =>
    rw [flag?_eq_some_iff.1 found] at plain
    exact absurd (isFlagLike_text flag) plain

def flagsAmong (arguments : List String) : List Flag :=
  arguments.filterMap flag?

inductive Part where
  | flag (flag : Flag)
  | settings (path : String)
  | input (path : String)
  deriving DecidableEq, Repr

namespace Part

def arguments : Part → List String
  | .flag which => [which.text]
  | .settings path => [settingsOption, path]
  | .input path => [path]

def flag? : Part → Option Flag
  | .flag which => some which
  | .settings _ | .input _ => none

def settings? : Part → Option String
  | .settings path => some path
  | .flag _ | .input _ => none

def input? : Part → Option String
  | .input path => some path
  | .flag _ | .settings _ => none

/-- Whether a part is what it seems: no path in it looks like a flag. -/
def isPlain : Part → Bool
  | .flag _ => true
  | .settings path | .input path => !isFlagLike path

/-- The flags that a second look finds in a part are the part itself, if it is one. -/
theorem flagsAmong_arguments {part : Part} (plain : part.isPlain) :
    flagsAmong part.arguments = part.flag?.toList := by
  cases part with
  | flag which => simp [flagsAmong, arguments, flag?, flag?_eq_some_iff.2 rfl]
  | settings path =>
    have noFlag : Command.flag? path = none :=
      flag?_of_not_isFlagLike (by simpa [isPlain] using plain)
    have option : Command.flag? settingsOption = none := rfl
    simp [flagsAmong, arguments, flag?, noFlag, option]
  | input path =>
    have noFlag : Command.flag? path = none :=
      flag?_of_not_isFlagLike (by simpa [isPlain] using plain)
    simp [flagsAmong, arguments, flag?, noFlag]

end Part

namespace Draft

def add (draft : Draft) : Part → Draft
  | .flag flag => { draft with flags := draft.flags ++ [flag] }
  | .settings path => { draft with settings := some path }
  | .input path => { draft with input := some path }

def canTake (draft : Draft) (part : Part) : Bool :=
  part.input?.isNone || draft.input.isNone

theorem read_part {draft : Draft} {part : Part} (plain : part.isPlain) (free : draft.canTake part)
    (rest : List String) : draft.read (part.arguments ++ rest) = (draft.add part).read rest := by
  cases part with
  | flag flag => cases flag <;> rfl
  | settings path =>
    have unlike : isFlagLike path = false := by simpa [Part.isPlain] using plain
    simp [Part.arguments, settingsOption, read, unlike, add]
  | input path =>
    have unlike : isFlagLike path = false := by simpa [Part.isPlain] using plain
    have fresh : draft.input = none := by simpa [canTake, Part.input?] using free
    have noOption : path ≠ "--config" := by
      rintro rfl
      exact absurd isFlagLike_settingsOption (by simpa [settingsOption] using unlike)
    have noFlag : flag? path = none := flag?_of_not_isFlagLike (by simp [unlike])
    rw [Part.arguments, List.singleton_append, read]
    · simp [noFlag, unlike, fresh, add]
    · exact noOption

def Takes : Draft → List Part → Prop
  | _, [] => True
  | draft, part :: rest => part.isPlain ∧ draft.canTake part ∧ (draft.add part).Takes rest

theorem read_parts {draft : Draft} {parts : List Part} (takes : draft.Takes parts) :
    draft.read (parts.flatMap Part.arguments) = .ok (parts.foldl add draft) := by
  induction parts generalizing draft with
  | nil => rfl
  | cons part rest ih =>
    obtain ⟨plain, free, later⟩ := takes
    rw [List.flatMap_cons, read_part plain free, ih later, List.foldl_cons]

theorem exists_parts_of_read {draft result : Draft} {arguments : List String}
    (found : draft.read arguments = .ok result) :
    ∃ parts, arguments = parts.flatMap Part.arguments ∧ draft.Takes parts := by
  fun_induction read draft arguments with
  | case1 draft => exact ⟨[], rfl, trivial⟩
  | case2 draft => cases found
  | case3 draft path rest like => cases found
  | case4 draft path rest unlike ih =>
    obtain ⟨parts, rfl, takes⟩ := ih found
    exact ⟨.settings path :: parts, rfl, by simpa [Part.isPlain] using unlike, rfl, takes⟩
  | case5 draft argument rest noOption flag isFlag ih =>
    obtain ⟨parts, rfl, takes⟩ := ih found
    obtain rfl := flag?_eq_some_iff.1 isFlag
    exact ⟨.flag flag :: parts, rfl, rfl, rfl, takes⟩
  | case6 draft argument rest noOption noFlag like => cases found
  | case7 draft argument rest noOption noFlag unlike given => cases found
  | case8 draft argument rest noOption noFlag unlike fresh ih =>
    obtain ⟨parts, rfl, takes⟩ := ih found
    refine ⟨.input argument :: parts, rfl, by simpa [Part.isPlain] using unlike, ?_, takes⟩
    simpa [canTake, Part.input?] using fresh

theorem takes_iff {draft : Draft} {parts : List Part} :
    draft.Takes parts ↔ (∀ part ∈ parts, part.isPlain) ∧
      (draft.input.toList ++ parts.filterMap Part.input?).length ≤ 1 := by
  induction parts generalizing draft with
  | nil => cases draft.input <;> simp [Takes]
  | cons part rest ih =>
    rw [Takes, ih, List.forall_mem_cons, List.filterMap_cons]
    cases part with
    | flag => simp [canTake, Part.input?, add, and_assoc]
    | settings => simp [canTake, Part.input?, add, and_assoc]
    | input => cases given : draft.input <;> simp [canTake, Part.input?, add, and_assoc, given]

/-- Of several settings files the last one counts. -/
theorem foldl_add (draft : Draft) (parts : List Part) :
    parts.foldl add draft =
      { input := (parts.filterMap Part.input?).getLast?.or draft.input
        settings := (parts.filterMap Part.settings?).getLast?.or draft.settings
        flags := draft.flags ++ parts.filterMap Part.flag? } := by
  induction parts generalizing draft with
  | nil => simp
  | cons part rest ih =>
    rw [List.foldl_cons, ih]
    cases part with
    | flag => simp [add, List.filterMap_cons, Part.input?, Part.settings?, Part.flag?]
    | settings | input =>
      simp [add, List.filterMap_cons, Part.input?, Part.settings?, Part.flag?, List.getLast?_cons]

end Draft

/-- A whole command: paths are plain, and one input is given, which is a file of terms. -/
structure IsComplete (parts : List Part) (input : String) : Prop where
  plain : ∀ part ∈ parts, part.isPlain
  inputs : parts.filterMap Part.input? = [input]
  extension : Path.extension? input = some "json"

def ofParts (parts : List Part) (input : String) : Command :=
  .render input (parts.filterMap Part.settings?).getLast? (parts.filterMap Part.flag?)

variable {parts : List Part} {input : String}

theorem parse_parts (complete : IsComplete parts input) :
    parse ("render" :: parts.flatMap Part.arguments) = .ok (ofParts parts input) := by
  have takes : Draft.Takes {} parts :=
    Draft.takes_iff.2 ⟨complete.plain, by simp [complete.inputs]⟩
  have read : parse ("render" :: parts.flatMap Part.arguments) =
      (parts.foldl Draft.add {}).finish := by
    simp [parse, Draft.read_parts takes]
  rw [read, Draft.foldl_add]
  simp [Draft.finish, complete.inputs, complete.extension, ofParts]

theorem exists_parts_of_parse {arguments : List String} {command : Command}
    (found : parse ("render" :: arguments) = .ok command) :
    ∃ parts input, arguments = parts.flatMap Part.arguments ∧ IsComplete parts input := by
  cases read : Draft.read {} arguments with
  | error error => simp [parse, read] at found
  | ok draft =>
    obtain ⟨parts, rfl, takes⟩ := Draft.exists_parts_of_read read
    obtain ⟨plain, single⟩ := Draft.takes_iff.1 takes
    have finished : (parts.foldl Draft.add {}).finish = .ok command := by
      simpa [parse, Draft.read_parts takes] using found
    rw [Draft.foldl_add] at finished
    -- There is one input at most, and without any the command would not be finished.
    match inputs : parts.filterMap Part.input?, single with
    | [], _ => simp [inputs, Draft.finish] at finished
    | [input], _ =>
      by_cases extension : Path.extension? input = some "json"
      · exact ⟨parts, input, rfl, plain, inputs, extension⟩
      · simp [inputs, Draft.finish, extension] at finished

theorem flagsAmong_parts (plain : ∀ part ∈ parts, part.isPlain) :
    flagsAmong (parts.flatMap Part.arguments) = parts.filterMap Part.flag? := by
  induction parts with
  | nil => rfl
  | cons part rest ih =>
    rw [List.forall_mem_cons] at plain
    have first := Part.flagsAmong_arguments plain.1
    have later := ih plain.2
    unfold flagsAmong at first later ⊢
    rw [List.flatMap_cons, List.filterMap_append, first, later, List.filterMap_cons]
    cases part.flag? <;> rfl

theorem IsComplete.perm {reordered : List Part} (complete : IsComplete parts input)
    (perm : reordered.Perm parts) : IsComplete reordered input where
  plain part member := complete.plain part (perm.subset member)
  inputs := List.perm_singleton.1 (complete.inputs ▸ perm.filterMap Part.input?)
  extension := complete.extension

/-- A render command is read exactly if its arguments are the parts of a whole command. Its input is
the one that is given, its settings file the last of those given, and its flags are all flags among
the arguments of the program, whose own name is none. Parts in another order make the same command
if their settings files stay in order, but for the order of the flags. Any other arguments are an
error, which alone is reported: no file is read. -/
theorem parse_render (arguments : List String) :
    ((∃ command, parse ("render" :: arguments) = .ok command) ↔
      ∃ parts input, arguments = parts.flatMap Part.arguments ∧ IsComplete parts input) ∧
    (∀ parts input, arguments = parts.flatMap Part.arguments → IsComplete parts input →
      parse ("render" :: arguments) =
        .ok (.render input (parts.filterMap Part.settings?).getLast? (parts.filterMap Part.flag?)) ∧
      (∀ program, flag? program = none →
        flagsAmong (program :: "render" :: arguments) = parts.filterMap Part.flag?) ∧
      ∀ reordered : List Part, reordered.Perm parts →
        reordered.filterMap Part.settings? = parts.filterMap Part.settings? →
        ∃ flags, flags.Perm (parts.filterMap Part.flag?) ∧
          parse ("render" :: reordered.flatMap Part.arguments) =
            .ok (.render input (parts.filterMap Part.settings?).getLast? flags)) ∧
    ((¬ ∃ parts input, arguments = parts.flatMap Part.arguments ∧ IsComplete parts input) →
      ∃ error, parse ("render" :: arguments) = .error error ∧
        Session.candidates ("render" :: arguments) = [] ∧
        ∀ files directory elapsed, Session.respond files directory elapsed ("render" :: arguments) =
          [Terminal.styled [.red] error.message] :: Session.usage) := by
  have accepted : (∃ command, parse ("render" :: arguments) = .ok command) ↔
      ∃ parts input, arguments = parts.flatMap Part.arguments ∧ IsComplete parts input := by
    constructor
    · rintro ⟨command, found⟩
      exact exists_parts_of_parse found
    · rintro ⟨parts, input, rfl, complete⟩
      exact ⟨_, parse_parts complete⟩
  refine ⟨accepted, ?_, ?_⟩
  · rintro parts input rfl complete
    refine ⟨parse_parts complete, ?_, ?_⟩
    · intro program noFlag
      have noCommand : flag? "render" = none := rfl
      rw [← flagsAmong_parts complete.plain]
      simp [flagsAmong, noFlag, noCommand]
    · intro reordered perm kept
      refine ⟨_, perm.filterMap Part.flag?, ?_⟩
      rw [parse_parts (complete.perm perm), ofParts, kept]
  · intro foreign
    cases parsed : parse ("render" :: arguments) with
    | ok command => exact absurd (accepted.1 ⟨command, parsed⟩) foreign
    | error error =>
      refine ⟨error, rfl, ?_, ?_⟩
      · simp [Session.candidates, parsed]
      · intro files directory elapsed
        simp [Session.respond, parsed]

/-- Two settings files around the input and a flag between them, and the same parts in another
order. -/
theorem parse_render_interleaved :
    let parts : List Part :=
      [.settings "a.toml", .flag .hideTimers, .input "m.json", .settings "b.toml",
        .flag .lineComments]
    let reordered : List Part :=
      [.flag .lineComments, .input "m.json", .settings "a.toml", .settings "b.toml",
        .flag .hideTimers]
    let arguments :=
      ["--config", "a.toml", "--hide-timers", "m.json", "--config", "b.toml", "--lines"]
    (arguments = parts.flatMap Part.arguments ∧ IsComplete parts "m.json" ∧
      flag? "legible" = none ∧ reordered.Perm parts ∧
      reordered.filterMap Part.settings? = parts.filterMap Part.settings?) ∧
    parse ("render" :: arguments) =
      .ok (.render "m.json" (some "b.toml") [.hideTimers, .lineComments]) ∧
    flagsAmong ("legible" :: "render" :: arguments) = [.hideTimers, .lineComments] ∧
    ∃ flags, flags.Perm [.hideTimers, .lineComments] ∧
      parse ("render" :: reordered.flatMap Part.arguments) =
        .ok (.render "m.json" (some "b.toml") flags) := by
  intro parts reordered arguments
  have spelled : arguments = parts.flatMap Part.arguments := rfl
  have extension : Path.extension? "m.json" = some "json" := by decide +kernel
  have complete : IsComplete parts "m.json" := ⟨by decide +kernel, rfl, extension⟩
  have perm : reordered.Perm parts := by decide
  have ⟨_, result, _⟩ := parse_render arguments
  have ⟨parsed, flags, others⟩ := result parts "m.json" spelled complete
  exact ⟨⟨spelled, complete, rfl, perm, rfl⟩, parsed, flags "legible" rfl,
    others reordered perm rfl⟩

end Command

end Legible
