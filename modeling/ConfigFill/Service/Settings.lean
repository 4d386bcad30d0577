import ConfigFill.Trace.Record

/-!
# Connection settings

Settings for reaching the parameter service come from three layers: those given explicitly, those
configured for this service, and general ones, which have no endpoint. Each field takes the value of
the first layer that has one. Configuring with nothing for a field leaves the field as it was.
-/

namespace ConfigFill.Service

/-- Settings that hold for every service. -/
structure GeneralSettings where
  region : Option String
  profile : Option String
  deriving DecidableEq, Repr, Inhabited

/-- The configured layers. -/
structure Configuration where
  general : GeneralSettings
  dedicated : Connection
  deriving DecidableEq, Repr, Inhabited

namespace Configuration

/-- Nothing is configured. -/
def initial : Configuration :=
  ⟨⟨none, none⟩, ⟨none, none, none⟩⟩

/-- Configure the settings that hold for every service. -/
def configureGeneral (configuration : Configuration) (settings : GeneralSettings) :
    Configuration :=
  { configuration with
    general :=
      { region := settings.region <|> configuration.general.region
        profile := settings.profile <|> configuration.general.profile } }

/-- Configure the settings of the parameter service alone. -/
def configureDedicated (configuration : Configuration) (settings : Connection) : Configuration :=
  { configuration with
    dedicated :=
      { endpoint := settings.endpoint <|> configuration.dedicated.endpoint
        region := settings.region <|> configuration.dedicated.region
        profile := settings.profile <|> configuration.dedicated.profile } }

/-- The settings in effect beside explicit ones. -/
def connection (configuration : Configuration) (given : Connection) : Connection where
  endpoint := given.endpoint <|> configuration.dedicated.endpoint
  region := given.region <|> configuration.dedicated.region <|> configuration.general.region
  profile := given.profile <|> configuration.dedicated.profile <|> configuration.general.profile

end Configuration

/-- One way to change the configured layers. -/
inductive Change where
  | general (settings : GeneralSettings)
  | dedicated (settings : Connection)
  | reset
  deriving DecidableEq, Repr

/-- The configuration after a change. -/
def Configuration.apply (configuration : Configuration) : Change → Configuration
  | .general settings => configuration.configureGeneral settings
  | .dedicated settings => configuration.configureDedicated settings
  | .reset => .initial

end ConfigFill.Service
