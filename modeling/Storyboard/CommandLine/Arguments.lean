import Storyboard.CommandLine.Help

/-! # Reading the command line

    The words of the command line are read from the left. The first word that
    is wrong ends it, and so does the first that asks for help. Options before
    the verb are those of the program; everything behind the verb belongs to
    the verb. -/

namespace Storyboard.CommandLine

/-- What to write a screening to, and how to show it. -/
structure ScreeningOptions where
  /-- The factor of the speed. -/
  speed   : Option Float
  /-- The step to go to instead of playing. -/
  stopAt  : Option Nat
  /-- Whether to do without the voice service. -/
  silent  : Bool
  /-- Where to write the drawing. -/
  drawing : Option String
  /-- Where to write the picture. -/
  picture : Option String
  /-- The scale of the picture. -/
  scale   : Float32

/-- What to request from the backend. -/
inductive Wanted where
  /-- The topic with a slug. -/
  | topic (slug : String)
  | text (s : String)
  deriving DecidableEq, Repr

/-- What the program is to do. -/
inductive Job where
  | validate (input : String) (strict : Bool)
  | play (input : String) (options : ScreeningOptions)
  | topics
  /-- Request a visualization, wait some seconds for it, and play it. -/
  | connect (wanted : Option Wanted) (timeout : Nat) (options : ScreeningOptions)

/-- What a command line asks for. -/
inductive Request where
  | help (s : Subject)
  | version
  /-- Do something, with the settings of a file if there is one. -/
  | run (settings : Option String) (job : Job)

/-! ### Problems -/

/-- What can be wrong with a command line. -/
inductive UsageProblem where
  /-- There are no words. -/
  | nothing
  /-- There is no verb. -/
  | noVerb
  /-- There is no such verb. -/
  | unknownVerb (subject : Subject) (word : String)
  /-- There is no such option, or no option is expected. -/
  | unexpected (subject : Subject) (word : String)
  | noValue (f : Flag)
  /-- A switch was given a value. -/
  | valueRefused (subject : Subject) (name value : String)
  | repeated (subject : Subject) (f : Flag)
  | badValue (f : Flag) (value reason : String)
  | rivals (subject : Subject) (f g : Flag)
  | missing (subject : Subject) (flags : List Flag)

namespace UsageProblem

/-- The last line of every problem. -/
def hint : String := "For more information, try '--help'.\n"

/-- A problem in one line. -/
def plain (line : String) : String := "error: " ++ line ++ "\n\n" ++ hint

/-- A problem in one line, and how it is done. -/
def withUsage (s : Subject) (line : String) : String :=
  "error: " ++ line ++ "\n\n" ++ s.usageLine ++ "\n" ++ hint

/-- The problem in words. -/
def text : UsageProblem → String
  | .nothing => Subject.program.text
  | .noVerb => withUsage .program
      ("'" ++ programName ++ "' requires a subcommand but one was not provided\n  [subcommands: " ++
        ", ".intercalate (Verb.all.map (·.name) ++ ["help"]) ++ "]")
  | .unknownVerb s word => withUsage s ("unrecognized subcommand '" ++ word ++ "'")
  | .unexpected s word => withUsage s ("unexpected argument '" ++ word ++ "' found")
  | .noValue f => plain
      ("a value is required for '" ++ f.usage ++ "' but none was supplied")
  | .valueRefused s name value => withUsage s
      ("unexpected value '" ++ value ++ "' for '--" ++ name ++ "' found; no more were expected")
  | .repeated s f => withUsage s
      ("the argument '" ++ f.usage ++ "' cannot be used multiple times")
  | .badValue f value reason => plain
      ("invalid value '" ++ value ++ "' for '" ++ f.usage ++ "': " ++ reason)
  | .rivals s f g => withUsage s
      ("the argument '" ++ f.usage ++ "' cannot be used with '" ++ g.usage ++ "'")
  | .missing s flags => withUsage s
      ("the following required arguments were not provided:" ++
        String.join (flags.map fun f => "\n  " ++ f.usage))

end UsageProblem

/-! ### Options -/

/-- Options and their values, the first given first; a switch has no value. -/
abbrev Given := List (Flag × String)

/-- The value of an option. -/
def Given.value? (given : Given) (f : Flag) : Option String :=
  (given.find? fun g => g.1.name == f.name).map (·.2)

/-- The value of an option, or its usual one. -/
def Given.valueOr (given : Given) (f : Flag) : String :=
  (given.value? f).getD (f.usual?.getD "")

/-- Whether an option is given. -/
def Given.has (given : Given) (f : Flag) : Bool := (given.value? f).isSome

/-- Why reading ends before the words do. -/
inductive Halt where
  | problem (p : UsageProblem)
  | help (s : Subject)
  | version

/-- Whether help can be asked for about a subject by an option, and for the version. -/
def Subject.hasVersion : Subject → Bool
  | .program => true
  | _ => false

/-- The options of a subject. -/
def Subject.flags : Subject → List Flag
  | .program => [.settings]
  | .verb v => v.flags
  | .help => []

/-- Take an option with its value. -/
def Given.take (given : Given) (s : Subject) (f : Flag) (value : String) : Except Halt Given :=
  if f.value?.any (·.1 == .path) && value.isEmpty then .error (.problem (.noValue f))
  else if given.has f then .error (.problem (.repeated s f))
  else match f.value?.bind (·.1.reason? value) with
    | some reason => .error (.problem (.badValue f value reason))
    | none => .ok (given ++ [(f, value)])

/-- The name and the value of a word that begins with two dashes. -/
def splitValue (cs : List Char) : String × Option String :=
  let rest := cs.dropWhile (· != '=')
  (String.ofList (cs.takeWhile (· != '=')),
    if rest.isEmpty then none else some (String.ofList rest.tail))

/-- What a long option does: it is taken, or its value is still to come. -/
inductive Taken where
  | whole (given : Given)
  | open (f : Flag)

/-- Take a long option. -/
def takeLong (s : Subject) (given : Given) (cs : List Char) : Except Halt Taken :=
  let (name, value?) := splitValue cs
  let refuse (value : String) : Except Halt Taken :=
    .error (.problem (.valueRefused s name value))
  match s.flags.find? (·.name == name) with
  | some f =>
    match f.value?, value? with
    | some _, some value => (given.take s f value).map .whole
    | some _, none => .ok (.open f)
    | none, none => (given.take s f "").map .whole
    | none, some value => refuse value
  | none =>
    if name == "help" then value?.elim (.error (.help s)) refuse
    else if name == "version" && s.hasVersion then value?.elim (.error .version) refuse
    else .error (.problem (.unexpected s ("--" ++ name)))

/-- What a word of short options asks for; only its first letter counts. -/
def shortHalt (s : Subject) (c : Char) : Halt :=
  if c = 'h' then .help s
  else if c = 'V' && s.hasVersion then .version
  else .problem (.unexpected s ("-" ++ c.toString))

/-- An option whose value is missing, if there is one. -/
def requireValue : Option Flag → Except Halt Unit
  | some f => .error (.problem (.noValue f))
  | none => .ok ()

/-- Read the words of a subject up to a verb. `pending` is the option that waits for its value. -/
def scan (s : Subject) (given : Given) (pending : Option Flag) :
    List String → Except Halt (Given × Option (String × List String))
  | [] => do
    requireValue pending
    return (given, none)
  | word :: rest => do
    -- An option that waits takes the next word as its value even if that is the name of a verb.
    if s = .program ∧ pending = none ∧ (word = "help" ∨ (Verb.ofName? word).isSome) then
      return (given, some (word, rest))
    match word.toList with
    | ['-', '-'] =>
      requireValue pending
      -- Behind the bare dashes only operands may follow, and no subject takes any.
      match rest with
      | [] => return (given, none)
      | w :: _ => throw (.problem (.unexpected s w))
    | '-' :: '-' :: cs =>
      match pending with
      | some f => throw (.problem (.noValue f))
      | none =>
        match ← takeLong s given cs with
        | .whole given => scan s given none rest
        | .open f => scan s given (some f) rest
    | '-' :: c :: _ =>
      requireValue pending
      throw (shortHalt s c)
    | _ =>
      match pending with
      | some f => scan s (← given.take s f word) none rest
      | none =>
        throw (.problem (if s = .program then .unknownVerb s word else .unexpected s word))

/-! ### Jobs -/

/-- The subject that the words behind `help` name. -/
def helpSubject : List String → Except UsageProblem Subject
  | [] => .ok .program
  | [word] =>
    if word = "help" then .ok .help
    else match Verb.ofName? word with
      | some v => .ok (.verb v)
      | none => .error (.unknownVerb .program word)
  | first :: word :: _ =>
    match Verb.ofName? first with
    | some v => .error (.unknownVerb (.verb v) word)
    | none => .error (.unknownVerb (if first = "help" then .help else .program)
        (if first = "help" then word else first))

/-- Refuse options that exclude each other and those that are missing. -/
def check (v : Verb) (given : Given) : Except UsageProblem Unit :=
  let missing := v.required.filter fun f => !given.has f
  match v.rivals?.filter fun r => given.has r.1 && given.has r.2 with
  | some (f, g) => .error (.rivals (.verb v) f g)
  | none => if missing.isEmpty then .ok () else .error (.missing (.verb v) missing)

/-- The options of a screening. -/
def ScreeningOptions.ofGiven (given : Given) : ScreeningOptions where
  speed := (given.value? .speed).bind Number.float?
  stopAt := (given.value? .stopAt).bind Number.natural?
  silent := given.has .silent
  drawing := given.value? .drawing
  picture := given.value? .picture
  scale := (Number.float32? (given.valueOr .scale)).getD 1.0

/-- What to request. -/
def Wanted.ofGiven? (given : Given) : Option Wanted :=
  ((given.value? .topic).map .topic).or ((given.value? .request).map .text)

/-- The job of a verb with its options. -/
def Job.ofVerb (v : Verb) (given : Given) : Job :=
  match v with
  | .validate => .validate (given.valueOr .input) (given.has .strict)
  | .play => .play (given.valueOr .input) (.ofGiven given)
  | .topics => .topics
  | .connect => .connect (Wanted.ofGiven? given) ((Number.natural? (given.valueOr .timeout)).getD 0)
      (.ofGiven given)

/-- What a verb with words behind it asks for; `outer` are the options before it. -/
def ofVerb (v : Verb) (outer : Given) (words : List String) : Except Halt Request := do
  let (given, _) ← scan (.verb v) [] none words
  match check v given with
  | .error p => throw (.problem p)
  | .ok () =>
    return .run ((given.value? .settings).or (outer.value? .settings)) (.ofVerb v given)

/-- What words ask for. -/
def read (words : List String) : Except Halt Request := do
  if words.isEmpty then throw (.problem .nothing)
  let (given, behind) ← scan .program [] none words
  match behind with
  | none => throw (.problem .noVerb)
  | some (word, rest) =>
    match Verb.ofName? word with
    | some v => ofVerb v given rest
    | none =>
      match helpSubject rest with
      | .ok s => return .help s
      | .error p => throw (.problem p)

/-- What a command line asks for, or what is wrong with it. -/
def Request.ofWords (words : List String) : Except UsageProblem Request :=
  match read words with
  | .ok r => .ok r
  | .error (.help s) => .ok (.help s)
  | .error .version => .ok .version
  | .error (.problem p) => .error p

end Storyboard.CommandLine
