import ConfigFill.Service.Settings
import Mathlib.Data.List.DropRight

/-!
# Settings after any changes

Which settings are in effect after any number of changes from nothing configured. Each layer keeps
for each field the last value given for it since the last reset, where nothing is no value
(`Records`, which every change keeps by `Records.apply`). The main statement is
`connection_takes_latest`.
-/

namespace ConfigFill.Service

namespace Change

/-- The settings for every service that a change gives. -/
def general? : Change → Option GeneralSettings
  | .general settings => some settings
  | _ => none

/-- The settings for this service alone that a change gives. -/
def dedicated? : Change → Option Connection
  | .dedicated settings => some settings
  | _ => none

/-- What a change gives for each field, in whatever layer. -/
def arguments : Change → Connection
  | .general settings => ⟨none, settings.region, settings.profile⟩
  | .dedicated settings => settings
  | .reset => ⟨none, none, none⟩

end Change

/-- The changes after the last reset. -/
def sinceReset (changes : List Change) : List Change :=
  changes.rtakeWhile (· ≠ .reset)

/-- The last value that a change has given since the last reset. -/
def latest? (value? : Change → Option String) (changes : List Change) : Option String :=
  ((sinceReset changes).filterMap value?).getLast?

/-- The last value since the last reset for a field of the settings for every service. -/
def latestGeneral? (field : GeneralSettings → Option String) (changes : List Change) :
    Option String :=
  latest? (·.general?.bind field) changes

/-- The last value since the last reset for a field of the settings for this service alone. -/
def latestDedicated? (field : Connection → Option String) (changes : List Change) :
    Option String :=
  latest? (·.dedicated?.bind field) changes

/-- Explicit settings, completed by the last values given for this service and then by those given
for every service, which have no endpoint. -/
def latestConnection (changes : List Change) (given : Connection) : Connection where
  endpoint := given.endpoint <|> latestDedicated? (·.endpoint) changes
  region := given.region <|> latestDedicated? (·.region) changes <|>
    latestGeneral? (·.region) changes
  profile := given.profile <|> latestDedicated? (·.profile) changes <|>
    latestGeneral? (·.profile) changes

variable {changes : List Change} {change : Change}

/-- After a reset, there is nothing since the last one. -/
theorem since_reset_concat_reset (changes : List Change) : sinceReset (changes ++ [.reset]) = [] :=
  List.rtakeWhile_concat_neg _ _ _ (by simp)

/-- Any other change is one more since the last reset. -/
theorem since_reset_concat (changes : List Change) (h : change ≠ .reset) :
    sinceReset (changes ++ [change]) = sinceReset changes ++ [change] :=
  List.rtakeWhile_concat_pos _ _ _ (by simpa using h)

/-- After a reset, no value has been given. -/
theorem latest_concat_reset (value? : Change → Option String) (changes : List Change) :
    latest? value? (changes ++ [.reset]) = none := by
  rw [latest?, since_reset_concat_reset]
  rfl

/-- A change without a value leaves the last one as it is. -/
theorem latest_concat (value? : Change → Option String) (changes : List Change)
    (h : change ≠ .reset) :
    latest? value? (changes ++ [change]) = (value? change <|> latest? value? changes) := by
  rw [latest?, since_reset_concat changes h, List.filterMap_append]
  cases hvalue : value? change with
  | none => simp [hvalue, latest?]
  | some value => simp [hvalue]

/-- Only the settings for every service count for the last value of one of their fields. -/
theorem latest_general_eq (field : GeneralSettings → Option String) (changes : List Change) :
    latestGeneral? field changes =
      (((sinceReset changes).filterMap Change.general?).filterMap field).getLast? := by
  rw [latestGeneral?, latest?, List.filterMap_filterMap]

/-- Only the settings for this service count for the last value of one of their fields. -/
theorem latest_dedicated_eq (field : Connection → Option String) (changes : List Change) :
    latestDedicated? field changes =
      (((sinceReset changes).filterMap Change.dedicated?).filterMap field).getLast? := by
  rw [latestDedicated?, latest?, List.filterMap_filterMap]

namespace Configuration

/-- The layers after changes, with nothing configured before. -/
def after (changes : List Change) : Configuration :=
  changes.foldl apply initial

/-- Each layer has for each field the last value that the changes gave for it. -/
structure Records (configuration : Configuration) (changes : List Change) : Prop where
  general : configuration.general =
    ⟨latestGeneral? (·.region) changes, latestGeneral? (·.profile) changes⟩
  dedicated : configuration.dedicated =
    ⟨latestDedicated? (·.endpoint) changes, latestDedicated? (·.region) changes,
      latestDedicated? (·.profile) changes⟩

/-- The settings at the start record that nothing was given. -/
theorem Records.initial : Records .initial [] :=
  ⟨rfl, rfl⟩

/-- One more change keeps the layers what the changes gave. -/
theorem Records.apply {configuration : Configuration} (h : Records configuration changes)
    (change : Change) : Records (configuration.apply change) (changes ++ [change]) := by
  cases change with
  | general settings =>
      constructor
      · simp [Configuration.apply, configureGeneral, latestGeneral?, latest_concat, Change.general?,
          h.general]
      · simp [Configuration.apply, configureGeneral, latestDedicated?, latest_concat,
          Change.dedicated?, h.dedicated]
  | dedicated settings =>
      constructor
      · simp [Configuration.apply, configureDedicated, latestGeneral?, latest_concat,
          Change.general?, h.general]
      · simp [Configuration.apply, configureDedicated, latestDedicated?, latest_concat,
          Change.dedicated?, h.dedicated]
  | reset =>
      constructor
      · simp [Configuration.apply, Configuration.initial, latestGeneral?, latest_concat_reset]
      · simp [Configuration.apply, Configuration.initial, latestDedicated?, latest_concat_reset]

/-- The settings after some changes record these. -/
theorem records_after (changes : List Change) : Records (after changes) changes := by
  induction changes using List.reverseRecOn with
  | nil => exact .initial
  | append_singleton changes change ih =>
      rw [after, List.foldl_concat]
      exact ih.apply change

/-- The settings in effect after some changes are those given last. -/
theorem connection_after (changes : List Change) (given : Connection) :
    (after changes).connection given = latestConnection changes given := by
  rw [connection, (records_after changes).general, (records_after changes).dedicated,
    latestConnection]

/-- After any changes, each field in effect is the one given explicitly, or else the last value
since the last reset that was given for this field and this service, or else, but not for the
endpoint, the last one that was given for it and every service. So a change that gives nothing for
a field leaves it as it was, and it does not matter how changes of the two layers alternate. -/
theorem connection_takes_latest (changes : List Change) (given : Connection) :
    (after changes).connection given = latestConnection changes given ∧
      (∀ change ≠ .reset,
        let before := (after changes).connection given
        let later := (after (changes ++ [change])).connection given
        (change.arguments.endpoint = none → later.endpoint = before.endpoint) ∧
          (change.arguments.region = none → later.region = before.region) ∧
          (change.arguments.profile = none → later.profile = before.profile)) ∧
      ∀ others : List Change,
        (sinceReset others).filterMap Change.general? =
          (sinceReset changes).filterMap Change.general? →
        (sinceReset others).filterMap Change.dedicated? =
          (sinceReset changes).filterMap Change.dedicated? →
        (after others).connection given = (after changes).connection given := by
  refine ⟨connection_after changes given, ?_, ?_⟩
  · intro change hchange
    simp only [connection_after, latestConnection, latestGeneral?, latestDedicated?,
      latest_concat _ _ hchange]
    cases change with
    | general settings =>
        simp +contextual [Change.general?, Change.dedicated?, Change.arguments]
    | dedicated settings =>
        simp +contextual [Change.general?, Change.dedicated?, Change.arguments]
    | reset => exact absurd rfl hchange
  · intro others hgeneral hdedicated
    simp only [connection_after, latestConnection, latest_general_eq, latest_dedicated_eq,
      hgeneral, hdedicated]

/-- A region of the dedicated layer stays above one that is given for every service later, and only
a reset takes it away. -/
example :
    (after [.dedicated ⟨none, some "a", none⟩, .general ⟨some "b", some "c"⟩]).connection
        ⟨none, none, none⟩ = ⟨none, some "a", some "c"⟩ ∧
      (after [.dedicated ⟨none, some "a", none⟩, .reset, .general ⟨some "b", none⟩]).connection
        ⟨none, none, none⟩ = ⟨none, some "b", none⟩ := by
  decide

end Configuration

end ConfigFill.Service
