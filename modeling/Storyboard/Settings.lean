import Storyboard.Channel.Reconnect
import Storyboard.Narration.Utterance
import Storyboard.Text.Quoted
import Storyboard.Toml.Reader
import Storyboard.Url.Reader

/-! # Settings

    What can be set from outside: where the backend is, how it speaks, how
    often to reconnect, how fast to play. Everything has a default. Settings
    come from a TOML file, and variables of the environment go before it. -/

namespace Storyboard

/-- Settings of the voice. -/
structure VoiceSettings where
  /-- Whether to use the voice service; if not, the local voice speaks. -/
  enabled   : Bool
  voiceId   : Option String
  /-- How many milliseconds to wait for the voice service. -/
  timeoutMs : Nat
  /-- How the local voice speaks. -/
  fallback  : Profile
  deriving Inhabited

/-- Settings of the channel to the backend. -/
structure ChannelSettings where
  /-- Where the channel is, unless it follows from where the backend is. -/
  url         : Option String
  attempts    : Nat
  /-- How many milliseconds to wait before the first attempt. -/
  baseDelayMs : Nat
  deriving DecidableEq, Repr, Inhabited

/-- All settings. -/
structure Settings where
  /-- Where the backend is. -/
  apiBase : String
  voice   : VoiceSettings
  channel : ChannelSettings
  speed   : Speed
  deriving Inhabited

/-- The usual voice: the service, with ten seconds of patience. -/
def VoiceSettings.usual : VoiceSettings := ⟨true, none, 10000, .usual⟩

/-- The usual channel. -/
def ChannelSettings.usual : ChannelSettings := ⟨none, 5, 2000⟩

namespace Settings

/-- The settings when nothing is set. -/
def usual : Settings := ⟨"http://localhost:8000", .usual, .usual, .normal⟩

/-! ### Decoding -/

open Decode Decode.Record

/-- The fields of the settings of the voice. -/
def voiceRecord : Record VoiceSettings :=
  let d := VoiceSettings.usual
  VoiceSettings.mk <$> withDefault "enabled" flag d.enabled <*>
    withDefault "voice_id" (optional text) d.voiceId <*>
    withDefault "timeout_ms" longCount d.timeoutMs <*>
    withDefault "fallback" Profile.decoder d.fallback

/-- The fields of the settings of the channel. -/
def channelRecord : Record ChannelSettings :=
  let d := ChannelSettings.usual
  ChannelSettings.mk <$> withDefault "ws_url" (optional text) d.url <*>
    withDefault "max_reconnect_attempts" count d.attempts <*>
    withDefault "reconnect_base_delay_ms" longCount d.baseDelayMs

/-- The fields of the settings of playback. -/
def playbackRecord : Record Speed := withDefault "speed" Decode.speed usual.speed

/-- The fields of all settings. -/
def record : Record Settings :=
  Settings.mk <$> withDefault "api_base" text usual.apiBase <*>
    withDefault "voice" (voiceRecord.closedDecoder "struct VoiceConfig") usual.voice <*>
    withDefault "channel" (channelRecord.closedDecoder "struct ChannelConfig") usual.channel <*>
    withDefault "playback" (playbackRecord.closedDecoder "struct PlaybackConfig") usual.speed

/-- How settings decode. -/
def decoder : Decoder Settings := record.closedDecoder "struct EngineConfig"

/-! ### Problems -/

/-- What can be wrong with settings. -/
inductive Problem where
  /-- They cannot be read. -/
  | unreadable (fault : Fault)
  /-- The address of the backend is none. -/
  | apiBase (text : String) (problem : Url.Problem)
  /-- The backend is not on the web. -/
  | apiScheme (scheme : String)
  /-- The address of the channel is none. -/
  | channelUrl (text : String) (problem : Url.Problem)
  /-- The channel is no web socket. -/
  | channelScheme (scheme : String)
  /-- There is no patience with the voice service at all. -/
  | timeout
  /-- The local voice has no pace. -/
  | rate

/-- The problem in words. -/
def Problem.message : Problem → String
  | .unreadable f => Category.serialization.describe ("config: " ++ f.message)
  | .apiBase text p =>
    Category.validation.describe ("api_base " ++ Text.quoted text ++ ": " ++ p.message)
  | .apiScheme scheme =>
    Category.validation.describe ("api_base must be http or https, got " ++ scheme)
  | .channelUrl text p =>
    Category.validation.describe ("channel.ws_url " ++ Text.quoted text ++ ": " ++ p.message)
  | .channelScheme scheme =>
    Category.validation.describe ("channel.ws_url must be ws or wss, got " ++ scheme)
  | .timeout => Category.validation.describe "voice.timeout_ms must be positive"
  | .rate => Category.validation.describe "voice.fallback.rate must be positive"

/-! ### What follows from settings -/

/-- Where the backend is. -/
def apiUrl (s : Settings) : Except Problem Url :=
  match Url.read s.apiBase with
  | .error p => .error (.apiBase s.apiBase p)
  | .ok u =>
    if u.scheme = "http" ∨ u.scheme = "https" then .ok u else .error (.apiScheme u.scheme)

/-- The channel of a backend: the same address as a web socket, at `/ws` and without a query. -/
def channelOf (api : Url) : Url :=
  { api.withScheme (if api.scheme = "https" then "wss" else "ws") with
    path := .segments ["ws"]
    query := none }

/-- Where the channel is. -/
def channelUrl (s : Settings) : Except Problem Url :=
  match s.channel.url with
  | none => s.apiUrl.map channelOf
  | some text =>
    match Url.read text with
    | .error p => .error (.channelUrl text p)
    | .ok u =>
      if u.scheme = "ws" ∨ u.scheme = "wss" then .ok u else .error (.channelScheme u.scheme)

/-- How long to wait for the voice service. -/
def voiceTimeout (s : Settings) : Span := .ofMillis s.voice.timeoutMs

/-- How to reconnect. -/
def reconnectPolicy (s : Settings) : ReconnectPolicy :=
  ⟨s.channel.attempts, .ofMillis s.channel.baseDelayMs⟩

/-- Refuse settings with which nothing could work. -/
def check (s : Settings) : Except Problem Settings := do
  let _ ← s.apiUrl
  let _ ← s.channelUrl
  if s.voice.timeoutMs = 0 then throw .timeout
  if s.voice.fallback.rate ≤ 0.0 || !s.voice.fallback.rate.isFinite then throw .rate
  return s

/-! ### Where settings come from -/

/-- Settings from the text of a file. -/
def ofToml (s : String) : Except Problem Settings :=
  match Toml.read? s with
  | none => .error (.unreadable .text)
  | some v =>
    match decoder .settings v with
    | .error p => .error (.unreadable (.fields p))
    | .ok s => s.check

/-- The variable for where the backend is. -/
def apiVariable : String := "ALGOSCOPE_API_BASE"

/-- The variable for where the channel is. -/
def channelVariable : String := "ALGOSCOPE_WS_URL"

/-- The variable for which voice speaks; a blank one is none. -/
def voiceVariable : String := "ALGOSCOPE_VOICE_ID"

/-- Let the variables of the environment go before the settings. -/
def withEnvironment (s : Settings) (named? : String → Option String) :
    Except Problem Settings :=
  let voiceId := match named? voiceVariable with
    | some v => if Text.isBlankText v then none else some v
    | none => s.voice.voiceId
  check { s with
    apiBase := (named? apiVariable).getD s.apiBase
    channel := { s.channel with url := (named? channelVariable).or s.channel.url }
    voice := { s.voice with voiceId } }

end Settings

end Storyboard
