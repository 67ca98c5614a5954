import Dataspace.Command.Options
import Dataspace.Exchange.Settings
/-!
Settings that come from options: the connector and how it is used, directories of partners, and the
twin registry.
-/

namespace Dataspace.Command

/-- The consumer's own connector.  Lengths of time are in nanoseconds. -/
structure ConnectorSettings where
  hostname : String
  apiKeyHeader : String
  apiKey : Option String
  protocolPath : String
  pollInterval : Nat
  maxChecks : Nat
  batchConcurrency : Nat
  expiryMargin : Nat
deriving DecidableEq, Repr

/-- Directories of partners and of their connectors. -/
structure DirectorySettings where
  partnersUrl : Option String
  connectorsUrl : Option String
deriving DecidableEq, Repr

/-- The twin registry, and what new twins are made with. -/
structure TwinSettings where
  hostname : String
  apiRoot : String
  token : Option String
  manufacturerId : String
  endpointBase : String
  batchConcurrency : Nat
deriving DecidableEq, Repr

/-- Options that say how negotiations are watched. -/
def pollingOptions : List OptionSpec :=
  [(OptionSpec.mandatory "edc-negotiation-poll-interval" .duration).fromVariable
      "EDC_NEGOTIATION_POLL_INTERVAL" |>.withDefault "3s",
    (OptionSpec.mandatory "edc-negotiation-max-checks" .word32).fromVariable
      "EDC_NEGOTIATION_MAX_CHECKS" |>.withDefault "3"]

def connectorOptions : List OptionSpec :=
  [(OptionSpec.mandatory "edc-hostname" .text).fromVariable "EDC_HOSTNAME"
      |>.withDefault "http://localhost:8181/management",
    (OptionSpec.mandatory "edc-api-key-header" .text).fromVariable "EDC_API_KEY_HEADER"
      |>.withDefault "x-api-key",
    (OptionSpec.optional "edc-api-key" .text).fromVariable "EDC_API_KEY",
    (OptionSpec.mandatory "edc-protocol-path" .text).fromVariable "EDC_PROTOCOL_PATH"
      |>.withDefault "/api/v1/dsp"] ++
  pollingOptions ++
  [(OptionSpec.mandatory "edc-batch-concurrency" .size).fromVariable "EDC_BATCH_CONCURRENCY"
      |>.withDefault "8",
    (OptionSpec.mandatory "edc-token-expiry-margin" .duration).fromVariable
        "EDC_TOKEN_EXPIRY_MARGIN"
      |>.withDefault "5s"]

def directoryOptions : List OptionSpec :=
  [(OptionSpec.optional "bpn-discovery-url" .text).fromVariable "BPN_DISCOVERY_URL",
    (OptionSpec.optional "connector-discovery-url" .text).fromVariable "CONNECTOR_DISCOVERY_URL"]

def twinOptions : List OptionSpec :=
  [(OptionSpec.mandatory "digital-twins-hostname" .text).fromVariable "DIGITAL_TWINS_HOSTNAME"
      |>.withDefault "http://localhost:4243",
    (OptionSpec.mandatory "digital-twins-api" .text).fromVariable "DIGITAL_TWINS_API"
      |>.withDefault "/api/v3.0",
    (OptionSpec.optional "digital-twins-token" .text).fromVariable "DIGITAL_TWINS_TOKEN",
    (OptionSpec.mandatory "manufacturer-id" .text).fromVariable "MANUFACTURER_ID",
    (OptionSpec.mandatory "edc-endpoint-base" .text).fromVariable "EDC_ENDPOINT_BASE",
    (OptionSpec.mandatory "twin-batch-concurrency" .size).fromVariable "TWIN_BATCH_CONCURRENCY"
      |>.withDefault "8"]

namespace Values

/-- The value of an option that has been completed. -/
def textOf (v : Values) (name : String) : String :=
  (v.get? name).getD ""

def sizeOf (v : Values) (name : String) : Nat :=
  ((v.get? name).bind size?).getD 0

def word32Of (v : Values) (name : String) : Nat :=
  ((v.get? name).bind word32?).getD 0

def durationOf (v : Values) (name : String) : Nat :=
  ((v.get? name).bind Duration.parse?).getD 0

end Values

namespace ConnectorSettings

def ofValues (v : Values) : ConnectorSettings where
  hostname := Values.textOf v "edc-hostname"
  apiKeyHeader := Values.textOf v "edc-api-key-header"
  apiKey := Values.get? v "edc-api-key"
  protocolPath := Values.textOf v "edc-protocol-path"
  pollInterval := Values.durationOf v "edc-negotiation-poll-interval"
  maxChecks := Values.word32Of v "edc-negotiation-max-checks"
  batchConcurrency := Values.sizeOf v "edc-batch-concurrency"
  expiryMargin := Values.durationOf v "edc-token-expiry-margin"

/-- Settings of the consumer.  An interval that is no whole number of milliseconds is rounded up. -/
def exchange (s : ConnectorSettings) : Exchange.Settings where
  polling := ⟨(s.pollInterval + 999999) / 1000000, s.maxChecks⟩
  batchConcurrency := s.batchConcurrency
  expiryMarginMillis := Duration.toMillis s.expiryMargin
  protocolPath := s.protocolPath

end ConnectorSettings

namespace DirectorySettings

def ofValues (v : Values) : DirectorySettings where
  partnersUrl := Values.get? v "bpn-discovery-url"
  connectorsUrl := Values.get? v "connector-discovery-url"

end DirectorySettings

namespace TwinSettings

def ofValues (v : Values) : TwinSettings where
  hostname := Values.textOf v "digital-twins-hostname"
  apiRoot := Values.textOf v "digital-twins-api"
  token := Values.get? v "digital-twins-token"
  manufacturerId := Values.textOf v "manufacturer-id"
  endpointBase := Values.textOf v "edc-endpoint-base"
  batchConcurrency := Values.sizeOf v "twin-batch-concurrency"

end TwinSettings

end Dataspace.Command
