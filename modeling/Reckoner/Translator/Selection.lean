import Reckoner.Translator.Anthropic
import Reckoner.Translator.OpenAi

/-! The translator that the settings select. -/

namespace Reckoner

/-- The provider with this name, or the failure for a name that no provider has. -/
def Provider.ofName (name : Text) : Except Failure Provider :=
  match named? name with
  | some provider => .ok provider
  | none => .error (.config ("Unsupported nl.provider: " ++ Text.quoted name))

/-- The translator that the settings select. -/
def TranslatorSettings.translator (settings : TranslatorSettings) : Program Translator :=
  match settings.provider with
  | .rules => return .rules
  | .service .openai => OpenAi.connect settings
  | .service .anthropic => Anthropic.connect settings

end Reckoner
