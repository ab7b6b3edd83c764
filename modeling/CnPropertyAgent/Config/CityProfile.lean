import CnPropertyAgent.Config.YamlMapping
import CnPropertyAgent.Domain.Payload
import CnPropertyAgent.Python.ReadText

/-!
City profiles: the names of the providers and the conventions of one city.

A profile file is decoded, parsed and validated. Sections that are not consumed yet are
ignored, as are keys that name no field.
-/

namespace CnPropertyAgent

open Python

/-! ### Models -/

structure CityProviderNamesFields where
  transactions : Option Str
  listings : Option Str
  geospatial : Option Str
  market : Option Str
  planning : Option Str
  research : Option Str
deriving DecidableEq

/-- A `str | None` field with `min_length=1`. -/
def checkName (loc : Str) : Option Str → List ErrorItem := checkOptional (checkNonempty loc)

def CityProviderNamesFields.errors (names : CityProviderNamesFields) : List ErrorItem :=
  checkName (str "transactions") names.transactions ++ checkName (str "listings") names.listings ++
  checkName (str "geospatial") names.geospatial ++ checkName (str "market") names.market ++
  checkName (str "planning") names.planning ++ checkName (str "research") names.research

theorem CityProviderNames.errors_eq_nil {transactions listings geospatial market planning research : Option Str}
    (h₁ : checkName (str "transactions") transactions = []) (h₂ : checkName (str "listings") listings = [])
    (h₃ : checkName (str "geospatial") geospatial = []) (h₄ : checkName (str "market") market = [])
    (h₅ : checkName (str "planning") planning = []) (h₆ : checkName (str "research") research = []) :
    CityProviderNamesFields.errors ⟨transactions, listings, geospatial, market, planning, research⟩ = [] := by
  simp only [CityProviderNamesFields.errors, h₁, h₂, h₃, h₄, h₅, h₆, List.append_nil]

/-- Provider names bound to a city, one per source category. -/
structure CityProviderNames extends CityProviderNamesFields where
  valid : toCityProviderNamesFields.errors = []
deriving DecidableEq

/-- `CityProviderNames()`. -/
def CityProviderNames.unnamed : CityProviderNames := ⟨⟨none, none, none, none, none, none⟩, rfl⟩

structure CityProfileFields where
  cityCode : Str
  countryCode : Option Str
  displayName : Option Str
  timezone : Option Str
  currency : Option Str
deriving DecidableEq

def CityProfileFields.errors (profile : CityProfileFields) : List ErrorItem :=
  checkNonempty (str "city_code") profile.cityCode ++ checkName (str "country_code") profile.countryCode ++
  checkName (str "display_name") profile.displayName ++ checkName (str "timezone") profile.timezone ++
  checkName (str "currency") profile.currency

theorem CityProfile.errors_eq_nil {cityCode : Str} {countryCode displayName timezone currency : Option Str}
    (h₁ : checkNonempty (str "city_code") cityCode = []) (h₂ : checkName (str "country_code") countryCode = [])
    (h₃ : checkName (str "display_name") displayName = []) (h₄ : checkName (str "timezone") timezone = [])
    (h₅ : checkName (str "currency") currency = []) :
    CityProfileFields.errors ⟨cityCode, countryCode, displayName, timezone, currency⟩ = [] := by
  simp only [CityProfileFields.errors, h₁, h₂, h₃, h₄, h₅, List.append_nil]

/-- One city's configuration. -/
structure CityProfile extends CityProfileFields where
  providers : CityProviderNames
  valid : toCityProfileFields.errors = []
deriving DecidableEq

/-! ### Validation -/

/-- A `str | None` field with `min_length=1` and the default `None`. -/
def optionalName (payload : Payload) (loc : Str) :
    Validated {s : Option Str // checkName loc s = []} :=
  optionalText payload loc (checkNonempty loc)

theorem optionalName_eq_ok {payload : Payload} {loc : Str} {t : {s : Option Str // checkName loc s = []}} :
    optionalName payload loc = .ok t ↔ SaysText payload loc t.1 := optionalText_eq_ok

def CityProviderNames.validate : Json → Validated CityProviderNames
  | .object entries =>
      (Validated.both (optionalName entries (str "transactions"))
        (Validated.both (optionalName entries (str "listings"))
          (Validated.both (optionalName entries (str "geospatial"))
            (Validated.both (optionalName entries (str "market"))
              (Validated.both (optionalName entries (str "planning"))
                (optionalName entries (str "research"))))))).map
        fun (transactions, listings, geospatial, market, planning, research) =>
          ⟨_, errors_eq_nil transactions.2 listings.2 geospatial.2 market.2 planning.2 research.2⟩
  | _ => .error [⟨[], str "Input should be a valid dictionary or instance of CityProviderNames"⟩]

/-- The items of a nested model, behind the name of its field. -/
def Validated.nested {α : Type} (name : Str) (validated : Validated α) : Validated α :=
  validated.mapError (List.map fun item => { item with loc := name :: item.loc })

/-- The field of the providers, which by default have no names. -/
def CityProfile.validateProviders (payload : Payload) : Validated CityProviderNames :=
  match payload.get? (str "providers") with
  | none => .ok .unnamed
  | some value => (CityProviderNames.validate value).nested (str "providers")

def CityProfile.validate (payload : Payload) : Validated CityProfile :=
  (Validated.both (requireField payload (str "city_code")
      (validateText (str "city_code") (checkNonempty (str "city_code"))))
    (Validated.both (optionalName payload (str "country_code"))
      (Validated.both (optionalName payload (str "display_name"))
        (Validated.both (optionalName payload (str "timezone"))
          (Validated.both (optionalName payload (str "currency")) (validateProviders payload)))))).map
    fun (cityCode, countryCode, displayName, timezone, currency, providers) =>
      ⟨_, providers, errors_eq_nil cityCode.2 countryCode.2 displayName.2 timezone.2 currency.2⟩

/-- The values of a mapping as they are validated. -/
def YamlValue.toJson : YamlValue → Json
  | .scalar text => .text text
  | .section entries => .object (entries.rows.map fun entry => (entry.1, .text entry.2))

def YamlMapping.payload (mapping : YamlMapping) : Payload :=
  mapping.rows.map fun item => (item.1, item.2.toJson)

/-! ### Loading -/

/-- What loading a profile can raise. -/
inductive ProfileFailure where
  /-- `CityProfileError(path, message)`. -/
  | profile (path message : Str)
  /-- A path that cannot be opened, or an error of the reader that is no `ValueError`. -/
  | raised (error : Exc)

/-- `str(error)`. -/
def ProfileFailure.text : ProfileFailure → Str
  | .profile path message => str "city profile " ++ path ++ str ": " ++ message
  | .raised error => error.message

/-- Reads and validates one profile file. -/
def loadCityProfileFile [Runtime] (profilePath : Str) (file : FileContent) (expectedCityCode : Option Str) :
    Except ProfileFailure CityProfile :=
  match file with
  | .error (.os text) => .error (.profile profilePath (str "cannot be read: " ++ text))
  | .error (.path error) => .error (.raised error)
  | .ok data =>
      match readText data with
      | .error error => .error (.profile profilePath (str "is not valid UTF-8: " ++ error.text))
      | .ok text =>
          match parseYamlMapping text with
          | .error (.valueError message) => .error (.profile profilePath message)
          | .error error => .error (.raised error)
          | .ok mapping =>
              match CityProfile.validate mapping.payload with
              | .error items => .error (.profile profilePath (formatValidationError items))
              | .ok profile =>
                  match expectedCityCode with
                  | none => .ok profile
                  | some expected =>
                      if profile.cityCode ≠ expected then
                        .error (.profile profilePath (str "declares city_code " ++ profile.cityCode.pyRepr ++
                          str ", expected " ++ expected.pyRepr))
                      else .ok profile

/-- Loads the profile of a city and verifies that it describes that city. `pathOf` is
`str(Path(directory) / f"{city_code}.yaml")`. -/
def loadCityProfile [Runtime] (pathOf : Str → Str) (read : Str → FileContent) (cityCode : Str) :
    Except ProfileFailure CityProfile :=
  loadCityProfileFile (pathOf cityCode) (read (pathOf cityCode)) (some cityCode)

end CnPropertyAgent
