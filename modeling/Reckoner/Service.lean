import Reckoner.Text.Basic

/-! The language-model services that can translate a request. -/

namespace Reckoner

/-- A language-model service. -/
inductive Service
  | openai
  | anthropic
  deriving DecidableEq, Repr

namespace Service

/-- The name in settings. -/
def name : Service → Text
  | openai => "openai"
  | anthropic => "anthropic"

/-- The model that is used unless the settings name one. -/
def defaultModel : Service → Text
  | openai => "gpt-4.1-mini"
  | anthropic => "claude-sonnet-4-5"

/-- The environment variable with the key, unless the settings name one. -/
def defaultKeyVariable : Service → Text
  | openai => "OPENAI_API_KEY"
  | anthropic => "ANTHROPIC_API_KEY"

end Service

/-- Who speaks in a conversation. -/
inductive Role
  | system
  | user
  deriving DecidableEq, Repr

/-- What is said in a conversation. -/
structure Message where
  role : Role
  content : Text
  deriving DecidableEq, Repr

namespace OpenAi

/-- A call: the conversation so far, the instructions first. -/
structure Call where
  model : Text
  messages : List Message
  deriving DecidableEq, Repr

/-- A response: the contents of the messages to choose from, if they are texts. -/
structure Response where
  choices : List (Option Text)
  deriving DecidableEq, Repr

end OpenAi

namespace Anthropic

/-- A call: the instructions, the conversation so far, and how long an answer may be. -/
structure Call where
  model : Text
  maxTokens : Nat
  system : Text
  messages : List Message
  deriving DecidableEq, Repr

/-- A response: the texts of the blocks of its content, if they have any. -/
structure Response where
  content : List (Option Text)
  deriving DecidableEq, Repr

end Anthropic

/-- A call of one of the services. -/
inductive Call
  | openAi (call : OpenAi.Call)
  | anthropic (call : Anthropic.Call)
  deriving DecidableEq, Repr

/-- What a service responds to a call with. -/
def Call.Response : Call → Type
  | openAi _ => OpenAi.Response
  | anthropic _ => Anthropic.Response

/-- Who translates requests: the phrase rules, or a service. -/
inductive Provider
  | rules
  | service (service : Service)
  deriving DecidableEq, Repr

namespace Provider

/-- All providers. -/
def all : List Provider := [rules, service .openai, service .anthropic]

/-- The name in settings. -/
def name : Provider → Text
  | rules => "rules"
  | service s => s.name

/-- The provider with this name. -/
def named? (name : Text) : Option Provider := all.find? fun provider => provider.name == name

/-- The model that is used unless the settings name one. -/
def defaultModel : Provider → Text
  | rules => []
  | service s => s.defaultModel

/-- The environment variable with the key, unless the settings name one. -/
def defaultKeyVariable : Provider → Text
  | rules => []
  | service s => s.defaultKeyVariable

end Provider

/-- Who translates, with what model, which environment variable has the key, and the path of the
instructions, which is empty for the usual ones. -/
structure TranslatorSettings where
  provider : Provider
  model : Text
  keyVariable : Text
  promptPath : Text
  deriving DecidableEq, Repr

end Reckoner
