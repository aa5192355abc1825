import FlowEngine.Execution.Settings
import FlowEngine.Gateway.Messages
import FlowEngine.Gateway.Records
import FlowEngine.Text.Blank
/-!
# `FlowEngine.Gateway.Settings` — which providers are set up

A provider is set up by its address.  One without an address is played in memory.
-/

namespace FlowEngine

/-- Addresses, tokens and keys of the providers. -/
structure GatewaySettings where
  pocketbaseUrl : Option String := none
  pocketbaseToken : Option String := none
  whatsappUrl : Option String := none
  whatsappInstance : Option String := none
  whatsappApiKey : Option String := none
  emailUrl : Option String := none
deriving DecidableEq, Repr

namespace GatewaySettings

/-- The settings of an environment; blank values are none. -/
def ofEnvironment (environment : Environment) : GatewaySettings :=
  let value (name : String) : Option String := environment.read? name Text.nonBlank?
  { pocketbaseUrl := value "RELAY_POCKETBASE_URL"
    pocketbaseToken := value "RELAY_POCKETBASE_TOKEN"
    whatsappUrl := value "RELAY_WHATSAPP_URL"
    whatsappInstance := value "RELAY_WHATSAPP_INSTANCE"
    whatsappApiKey := value "RELAY_WHATSAPP_API_KEY"
    emailUrl := value "RELAY_EMAIL_URL" }

/-- An address without slashes at its end. -/
def base (url : String) : String := Text.trimCharEnd '/' url

def records? (client : Http.Client) (settings : GatewaySettings) : Option RecordGateway :=
  settings.pocketbaseUrl.map fun url =>
    { client, base := base url, token := settings.pocketbaseToken }

def chat? (client : Http.Client) (settings : GatewaySettings) : Option ChatGateway :=
  settings.whatsappUrl.map fun url =>
    { client, base := base url, sender := settings.whatsappInstance.getD "default",
      key := settings.whatsappApiKey }

def mail? (client : Http.Client) (settings : GatewaySettings) : Option MailGateway :=
  settings.emailUrl.map fun url => { client, base := base url }

end GatewaySettings

end FlowEngine
