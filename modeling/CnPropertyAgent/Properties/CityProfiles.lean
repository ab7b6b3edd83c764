import CnPropertyAgent.Config.CityProfile
import CnPropertyAgent.Properties.RecordedRuns
import CnPropertyAgent.Properties.YamlSubset

/-!
What a city profile file says.

A file is loaded exactly when it is the UTF-8 text of a document of the reader's, whatever its
line ends are, and the document has the fields of a profile under their names. Other names
are ignored, at top level and among the providers.
-/

namespace CnPropertyAgent

open Python YamlMapping

/-! ### Fields -/

/-- The payload names the providers. -/
structure CityProviderNames.InPayload (names : CityProviderNames) (payload : Payload) : Prop where
  transactions : SaysText payload (str "transactions") names.transactions
  listings : SaysText payload (str "listings") names.listings
  geospatial : SaysText payload (str "geospatial") names.geospatial
  market : SaysText payload (str "market") names.market
  planning : SaysText payload (str "planning") names.planning
  research : SaysText payload (str "research") names.research

/-- The payload has the profile under the names of its fields. -/
structure CityProfile.InPayload (profile : CityProfile) (payload : Payload) : Prop where
  cityCode : payload.get? (str "city_code") = some (.text profile.cityCode)
  countryCode : SaysText payload (str "country_code") profile.countryCode
  displayName : SaysText payload (str "display_name") profile.displayName
  timezone : SaysText payload (str "timezone") profile.timezone
  currency : SaysText payload (str "currency") profile.currency
  /-- Without a section of providers, none has a name. -/
  providers : payload.get? (str "providers") = none ∧ profile.providers = .unnamed ∨
    ∃ entries, payload.get? (str "providers") = some (.object entries) ∧ profile.providers.InPayload entries

theorem CityProviderNames.validate_eq_ok {value : Json} {names : CityProviderNames} :
    CityProviderNames.validate value = .ok names ↔
      ∃ entries, value = .object entries ∧ names.InPayload entries := by
  cases value with
  | object entries =>
      simp only [CityProviderNames.validate, Validated.map_eq_ok, Prod.exists, Validated.both_eq_ok,
        optionalName_eq_ok, Json.object.injEq, exists_eq_left']
      constructor
      · rintro ⟨_, _, _, _, _, _, ⟨h₁, h₂, h₃, h₄, h₅, h₆⟩, rfl⟩
        exact ⟨h₁, h₂, h₃, h₄, h₅, h₆⟩
      · rintro ⟨h₁, h₂, h₃, h₄, h₅, h₆⟩
        have valid := names.valid
        simp only [CityProviderNamesFields.errors, List.append_eq_nil_iff] at valid
        obtain ⟨⟨⟨⟨⟨v₁, v₂⟩, v₃⟩, v₄⟩, v₅⟩, v₆⟩ := valid
        exact ⟨⟨_, v₁⟩, ⟨_, v₂⟩, ⟨_, v₃⟩, ⟨_, v₄⟩, ⟨_, v₅⟩, ⟨_, v₆⟩, ⟨h₁, h₂, h₃, h₄, h₅, h₆⟩, rfl⟩
  | null => simp [CityProviderNames.validate]
  | bool => simp [CityProviderNames.validate]
  | int => simp [CityProviderNames.validate]
  | float => simp [CityProviderNames.validate]
  | text => simp [CityProviderNames.validate]
  | array => simp [CityProviderNames.validate]

theorem CityProfile.validateProviders_eq_ok {payload : Payload} {names : CityProviderNames} :
    validateProviders payload = .ok names ↔ payload.get? (str "providers") = none ∧ names = .unnamed ∨
      ∃ entries, payload.get? (str "providers") = some (.object entries) ∧ names.InPayload entries := by
  unfold validateProviders
  cases payload.get? (str "providers") with
  | none => simp [eq_comm]
  | some value => simp [Validated.nested, mapError_eq_ok, CityProviderNames.validate_eq_ok]

theorem CityProfile.validate_eq_ok {payload : Payload} {profile : CityProfile} :
    CityProfile.validate payload = .ok profile ↔ profile.InPayload payload := by
  simp only [CityProfile.validate, Validated.map_eq_ok, Prod.exists, Validated.both_eq_ok, optionalName_eq_ok,
    requireField_eq_ok, validateText_eq_ok, validateProviders_eq_ok]
  constructor
  · rintro ⟨_, _, _, _, _, _, ⟨⟨_, h₁, rfl⟩, h₂, h₃, h₄, h₅, h₆⟩, rfl⟩
    exact ⟨h₁, h₂, h₃, h₄, h₅, h₆⟩
  · rintro ⟨h₁, h₂, h₃, h₄, h₅, h₆⟩
    have valid := profile.valid
    simp only [CityProfileFields.errors, List.append_eq_nil_iff] at valid
    obtain ⟨⟨⟨⟨v₁, v₂⟩, v₃⟩, v₄⟩, v₅⟩ := valid
    exact ⟨⟨_, v₁⟩, ⟨_, v₂⟩, ⟨_, v₃⟩, ⟨_, v₄⟩, ⟨_, v₅⟩, _, ⟨⟨_, h₁, rfl⟩, h₂, h₃, h₄, h₅, h₆⟩, rfl⟩

/-! ### Files -/

/-- The fields of a document, in its order. -/
def documentPayload (nodes : List Node) : Payload :=
  nodes.map fun node => (node.item.1, node.item.2.toJson)

theorem LaysOut.universalNewlines_iff {reads : Str → Entry → Prop} {text : Str} {nodes : List Node} :
    LaysOut reads (universalNewlines text) nodes ↔ LaysOut reads text nodes := by
  constructor
  · rintro ⟨document, lines⟩
    exact ⟨document, splitlines_universalNewlines text ▸ lines⟩
  · rintro ⟨document, lines⟩
    exact ⟨document, (splitlines_universalNewlines text).symm ▸ lines⟩

/-- What a file holds as text. -/
theorem readText_eq_ok_iff {data : List UInt8} {text : Str} :
    readText data = .ok text ↔ ∃ decoded, decoded.encode? = some data ∧ universalNewlines decoded = text := by
  simp only [readText, ← decodeUtf8_eq_ok_iff]
  cases decodeUtf8 data <;> simp [Except.map]

section

variable [Runtime]

/-- The reader describes the document by its mapping. -/
theorem parse_inPayload_iff {text : Str} {profile : CityProfile} :
    (∃ mapping, parseYamlMapping text = .ok mapping ∧ profile.InPayload mapping.payload) ↔
      ∃ nodes, LaysOut ReadsAs text nodes ∧ profile.InPayload (documentPayload nodes) := by
  have same {mapping : YamlMapping} {nodes : List Node} (rows : mapping.rows = nodes.map Node.item) :
      mapping.payload = documentPayload nodes := by
    rw [YamlMapping.payload, rows, List.map_map]
    rfl
  constructor
  · rintro ⟨mapping, parsed, fields⟩
    obtain ⟨nodes, lays, rows⟩ := parseYamlMapping_ok_iff.mp parsed
    exact ⟨nodes, lays, same rows ▸ fields⟩
  · rintro ⟨nodes, lays, fields⟩
    obtain ⟨mapping, parsed, rows⟩ := parseYamlMapping_ok_of_laysOut lays
    exact ⟨mapping, parsed, (same rows).symm ▸ fields⟩

/-- The stages of loading. -/
theorem loadCityProfileFile_ok_iff {path : Str} {file : FileContent} {expected : Option Str}
    {profile : CityProfile} : loadCityProfileFile path file expected = .ok profile ↔
      (∃ data text mapping, file = .ok data ∧ readText data = .ok text ∧ parseYamlMapping text = .ok mapping ∧
        profile.InPayload mapping.payload) ∧ ∀ code ∈ expected, profile.cityCode = code := by
  simp only [← CityProfile.validate_eq_ok]
  unfold loadCityProfileFile
  cases file with
  | error error => cases error <;> simp
  | ok data =>
      cases decoded : readText data with
      | error error => simp [decoded]
      | ok text =>
          cases parsed : parseYamlMapping text with
          | error error =>
              obtain ⟨message, rfl⟩ := parseYamlMapping_error parsed
              simp [decoded, parsed]
          | ok mapping =>
              cases validated : CityProfile.validate mapping.payload with
              | error items => simp [decoded, parsed, validated]
              | ok read =>
                  cases expected with
                  | none => simp [decoded, parsed, validated]
                  | some code =>
                      by_cases own : read.cityCode = code
                      · simp [decoded, parsed, validated, own]
                        rintro rfl
                        exact own
                      · simp [decoded, parsed, validated, own]
                        rintro rfl
                        exact own

/-- Every failure is a `CityProfileError` about the path, unless the path cannot be opened. -/
theorem loadCityProfileFile_error {path : Str} {file : FileContent} {expected : Option Str}
    {failure : ProfileFailure} (failed : loadCityProfileFile path file expected = .error failure) :
    (∃ message, failure = .profile path message) ∨
      ∃ error, file = .error (.path error) ∧ failure = .raised error := by
  unfold loadCityProfileFile at failed
  split at failed
  · cases failed
    exact Or.inl ⟨_, rfl⟩
  · cases failed
    exact Or.inr ⟨_, rfl, rfl⟩
  left
  split at failed
  · cases failed
    exact ⟨_, rfl⟩
  split at failed
  · cases failed
    exact ⟨_, rfl⟩
  · rename_i error other parsed
    obtain ⟨message, rfl⟩ := parseYamlMapping_error parsed
    exact absurd rfl (other message)
  split at failed
  · cases failed
    exact ⟨_, rfl⟩
  split at failed
  · cases failed
  · split_ifs at failed
    cases failed
    exact ⟨_, rfl⟩

/-- **City profiles.** A file is loaded as a profile exactly when it is the UTF-8 text of a document
of the reader's that has the profile under the names of its fields, and the city is the
expected one; every failure is a `CityProfileError`, unless the path cannot be opened. -/
theorem city_profile_loads (path : Str) (file : FileContent) (expected : Option Str) :
    (∀ profile, loadCityProfileFile path file expected = .ok profile ↔
      (∃ data text nodes, file = .ok data ∧ text.encode? = some data ∧ LaysOut ReadsAs text nodes ∧
        profile.InPayload (documentPayload nodes)) ∧ ∀ code ∈ expected, profile.cityCode = code) ∧
    ∀ failure, loadCityProfileFile path file expected = .error failure →
      (∃ message, failure = .profile path message) ∨
        ∃ error, file = .error (.path error) ∧ failure = .raised error := by
  refine ⟨fun profile => ?_, fun failure => loadCityProfileFile_error⟩
  rw [loadCityProfileFile_ok_iff]
  refine and_congr_left fun _ => ⟨?_, ?_⟩
  · rintro ⟨data, text, mapping, holds, read, parsed, fields⟩
    obtain ⟨decoded, encoded, rfl⟩ := readText_eq_ok_iff.mp read
    obtain ⟨nodes, lays, told⟩ := parse_inPayload_iff.mp ⟨mapping, parsed, fields⟩
    exact ⟨data, decoded, nodes, holds, encoded, LaysOut.universalNewlines_iff.mp lays, told⟩
  · rintro ⟨data, decoded, nodes, holds, encoded, lays, told⟩
    obtain ⟨mapping, parsed, fields⟩ :=
      parse_inPayload_iff.mpr ⟨nodes, LaysOut.universalNewlines_iff.mpr lays, told⟩
    exact ⟨data, _, mapping, holds, readText_eq_ok_iff.mpr ⟨decoded, encoded, rfl⟩, parsed, fields⟩

end

end CnPropertyAgent
