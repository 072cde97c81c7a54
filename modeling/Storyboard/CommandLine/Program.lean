import Storyboard.Channel.Topic
import Storyboard.CommandLine.Arguments
import Storyboard.CommandLine.Interaction
import Storyboard.Session.Rehearsal
import Storyboard.Session.Screening
import Storyboard.Settings

/-! # The program

    What the program does for each of its verbs, as an interaction. The
    settings come first; they may fail before anything else does. -/

namespace Storyboard.CommandLine

/-! ### Failures -/

/-- What the program gives up for. -/
structure Failure where
  text  : String
  /-- What lies behind it. -/
  cause : Option String

/-- A text with all its lines but the first set in. -/
def hanging (s : String) : String :=
  String.ofList (s.toList.flatMap fun c => if c = '\n' then "\n    ".toList else [c])

/-- The failure in words. -/
def Failure.message (f : Failure) : String :=
  "Error: " ++ f.text ++ (match f.cause with
    | some cause => "\n\nCaused by:\n    " ++ hanging cause ++ "\n"
    | none => "\n")

/-- What the program does, unless it gives up. -/
abbrev Attempt (α : Type) := ExceptT Failure Interaction α

namespace Attempt

/-- Write a line to the output. -/
def print (line : String) : Attempt Unit := ExceptT.lift (.print (line ++ "\n") (.done ()))

/-- Write a line to where problems and progress go. -/
def tell (line : String) : Attempt Unit := ExceptT.lift (.tell (line ++ "\n") (.done ()))

/-- Give up. -/
def fail {α : Type} (text : String) (cause : Option String) : Attempt α := throw ⟨text, cause⟩

/-- Take a result, or give up for the reason why there is none. -/
def require {α ε : Type} (failure : ε → Failure) : Except ε α → Attempt α
  | .ok a => pure a
  | .error e => throw (failure e)

/-- The text of a file, if it can be read. -/
def readText (path : String) : Attempt (Except FileProblem String) :=
  ExceptT.lift (.readText path .done)

/-- The folder around a path, unless the path is a name alone. -/
def around? (path : String) : Option String :=
  let drop (names : List String) : List String :=
    match names.dropWhile fun n => n = "" ∨ n = "." with
    | [] => names.getLast?.toList.filter (· = ".")
    | names => names
  let names := (drop (drop (path.splitOn "/").reverse).tail).reverse
  if names.isEmpty then (if path.startsWith "/" then some "/" else none)
  else some ("/".intercalate names)

/-- Make the folder around a path. -/
def makeAround (path : String) : Attempt Unit := do
  match around? path with
  | none => return ()
  | some folder =>
    let r ← ExceptT.lift (.makeFolder folder .done)
    require (fun p => ⟨"create output dir '" ++ folder ++ "'", some p.message⟩) r

end Attempt

open Attempt

/-! ### Settings and payloads -/

/-- The settings: those of the file, if there is one, and of the environment. -/
def readSettings (named? : String → Option String) : Option String → Attempt Settings
  | none =>
    require (fun p => ⟨"read configuration from environment", some p.message⟩)
      (Settings.usual.withEnvironment named?)
  | some path => do
    let load := "load config '" ++ path ++ "'"
    let text ← require (fun p => ⟨load, some (Category.validation.describe
      ("failed to read config " ++ path ++ ": " ++ p.message))⟩) (← readText path)
    require (fun p => ⟨load, some p.message⟩) <| do
      (← Settings.ofToml text).withEnvironment named?

/-- The payload in a file. -/
def readPayload (path : String) : Attempt Payload := do
  let text ← require (fun p => ⟨"open payload '" ++ path ++ "'", some p.message⟩)
    (← readText path)
  require (fun f => ⟨"parse payload '" ++ path ++ "'", some (Payload.faultMessage f)⟩)
    (Payload.ofText text)

/-! ### Rehearsing -/

/-- Print the commands of a report that were skipped. -/
def printSkipped (place : String) (r : Report) : Attempt Unit :=
  r.skipped.forM fun s =>
    print (place ++ ", command " ++ Number.natText s.index ++ ": " ++ s.problem.message)

/-- Print the skipped commands of every step from a place on. -/
def printSteps (i : Nat) : List Report → Attempt Unit
  | [] => pure ()
  | r :: rest => do
    printSkipped ("step " ++ Number.natText i) r
    printSteps (i + 1) rest

/-- Rehearse a payload and print what became of it. -/
def rehearse (input : String) (strict : Bool) : Attempt Unit := do
  let r := Rehearsal.ofPayload (← readPayload input)
  printSkipped "initial state" r.setup
  printSteps 0 r.steps
  let total := r.total
  print (r.header.title ++ ": " ++ Number.natText r.steps.length ++ " steps, " ++ total.text)
  let skipped := total.skipped.length
  if strict && 0 < skipped then fail (Number.natText skipped ++ " command(s) would be skipped") none

/-! ### Playing -/

/-- A narrator as the settings say. The voice service is out of reach here. -/
def narratorOf (s : Settings) (o : ScreeningOptions) : Narrator :=
  let voice : Option Narration.VoiceService :=
    if s.voice.enabled && !o.silent then some ⟨.zero, .failure⟩ else none
  .ofEquipment ⟨s.voice.fallback, Narration.usualBitrate, voice, false⟩ []

/-- A session as the settings and the options say. -/
def sessionOf (s : Settings) (o : ScreeningOptions) : Attempt Session := do
  let speed ← match o.speed with
    | none => pure s.speed
    | some x => require (fun p => ⟨p.message, none⟩) (Speed.ofFactor x)
  let session := Session.ofNarrator (narratorOf s o) []
  return { session with player := session.player.setSpeed speed }

/-- Tell what is above the canvas. -/
def tellHeader (h : Header) : Attempt Unit := do
  tell h.title
  h.subtitle.toList.forM tell
  h.educational.toList.forM fun text => tell ("\n" ++ text ++ "\n")

/-- Show a payload. -/
def screen (session : Session) (p : Payload) (o : ScreeningOptions) : Attempt Screening := do
  let s := Screening.load session p
  tellHeader s.session.header
  let s := s.present o.stopAt
  tell s.summary
  return s

/-- Write the drawing of what was shown. -/
def writeDrawing (s : Screening) (path : String) : Attempt Unit := do
  makeAround path
  let canvas := s.session.player.stage.presenter.canvas
  let r ← ExceptT.lift (.writeText path (canvas.drawing s.now) .done)
  require (fun p => ⟨"write svg '" ++ path ++ "'", some p.message⟩) r
  tell ("wrote " ++ path)

/-- Write the picture of what was shown. -/
def writePicture (s : Screening) (scale : Float32) (path : String) : Attempt Unit := do
  makeAround path
  let canvas := s.session.player.stage.presenter.canvas
  let raster ← require (fun p => ⟨p.message, none⟩) (canvas.raster s.now scale)
  let r ← ExceptT.lift (.writePicture path (canvas.drawing s.now) raster .done)
  require (fun p => ⟨"write png '" ++ path ++ "'", some p.message⟩) r
  tell ("wrote " ++ path)

/-- Show a payload and write what is asked for. -/
def present (settings : Settings) (p : Payload) (o : ScreeningOptions) : Attempt Unit := do
  let s ← screen (← sessionOf settings o) p o
  o.drawing.toList.forM (writeDrawing s)
  o.picture.toList.forM (writePicture s o.scale)

/-! ### Topics and requests -/

/-- The heading over a shelf. -/
def headingOf : Shelf → String
  | .dataStructure => "Data structures"
  | .algorithm => "Algorithms"
  | .pattern => "Patterns"

/-- List the topics. -/
def listTopics : Attempt Unit :=
  [Shelf.dataStructure, .algorithm, .pattern].forM fun shelf => do
    print (headingOf shelf ++ ":")
    (Topic.all.filter (·.shelf = shelf)).forM fun t =>
      print ("  " ++ padded 20 t.slug ++ " " ++ t.title)

/-- What to request, in words. -/
def Wanted.request : Wanted → String
  | .topic slug => Topic.requestFor slug slug
  | .text s => s

/-- Request a visualization and show it. -/
def fetchAndPresent (settings : Settings) (wanted : Option Wanted) (timeout : Nat)
    (o : ScreeningOptions) : Attempt Unit := do
  match wanted with
  | none => fail "pass --topic or --request" none
  | some wanted =>
    let address := (← require (fun p => ⟨p.message, none⟩) settings.channelUrl).text
    match ← ExceptT.lift (.fetch address wanted.request timeout .done) with
    | none => fail ("connect to '" ++ address ++ "'") (some "channel closed")
    | some data =>
      tell ("requested: " ++ wanted.request)
      let p ← require (fun f => ⟨"parse visualization", some (Payload.faultMessage f)⟩)
        (Payload.ofJson data)
      present settings p o

/-! ### All of it -/

/-- Do a job. -/
def Job.perform (settings : Settings) : Job → Attempt Unit
  | .validate input strict => rehearse input strict
  | .play input o => do present settings (← readPayload input) o
  | .topics => listTopics
  | .connect wanted timeout o => fetchAndPresent settings wanted timeout o

/-- Do what a command line asks for; the result is the exit status. -/
def Request.perform (named? : String → Option String) : Request → Interaction Nat
  | .help s => .print s.text (.done 0)
  | .version => .print (programName ++ " " ++ programVersion ++ "\n") (.done 0)
  | .run settings job => do
    let r ← ExceptT.run do
      job.perform (← readSettings named? settings)
    match r with
    | .ok () => return 0
    | .error f => .tell f.message (.done 1)

/-- Run the program with these words and this environment; the result is the exit status. -/
def run (named? : String → Option String) (words : List String) : Interaction Nat :=
  match Request.ofWords words with
  | .ok r => r.perform named?
  | .error p => .tell p.text (.done 2)

end Storyboard.CommandLine
