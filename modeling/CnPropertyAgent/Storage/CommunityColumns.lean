import CnPropertyAgent.Domain.Payload
import CnPropertyAgent.Python.JsonRoundTrip
import CnPropertyAgent.Relational.Encoding
import CnPropertyAgent.Services.CommunityResolver
import CnPropertyAgent.Storage.Communities

/-!
Communities as the columns hold them.

A `JSON` column is text: what `json.dumps` made of a list is parsed and validated again by
every query. The columns that the statements and the queries compare are the same as those
of the rows, so the store of columns is the store of rows in another form.
-/

namespace CnPropertyAgent

open Python Relational

/-- What reading a row can raise. -/
inductive ColumnFailure where
  /-- An error of `json.loads`. -/
  | json (error : JsonError)
  /-- A `TypeError`. -/
  | typeError (message : Str)
  | raised (failure : Failure)

/-! ### `JSON` columns -/

/-- `model_dump(mode="json")`. -/
def SourceRef.modelDump (ref : SourceRef) : Json :=
  let optional : Option Str → Json := fun s => s.elim .null .text
  .object [(str "provider", .text ref.provider), (str "provider_entity_id", optional ref.providerEntityId),
    (str "provider_url", optional ref.providerUrl)]

/-- `SourceRef.model_validate(item)` of a loaded value. -/
def SourceRef.ofJson : Json → Validated SourceRef
  | .object entries =>
      Validated.unless ((Validated.both
        (requireField entries (str "provider")
          (validateText (str "provider") (checkNonempty (str "provider"))))
        (Validated.both (optionalText entries (str "provider_entity_id") fun _ => [])
          (optionalText entries (str "provider_url") fun _ => []))).map
        fun (provider, id, url) => ⟨provider.1, id.1, url.1⟩)
        (forbidExtra [str "provider", str "provider_entity_id", str "provider_url"] entries)
  | _ => .error [⟨[], str "Input should be a valid dictionary or instance of SourceRef"⟩]

section

variable [Runtime]

def jsonLoad (limit : Nat) (value : Option Str) (default : Json) : Except ColumnFailure Json :=
  match value with
  | none => .ok default
  | some text => (Json.loads limit text).mapError .json

/-- What iterating over a loaded value yields. -/
def elements : Json → Except ColumnFailure (List Json)
  | .array items => .ok items
  | .text s => .ok (s.map fun c => .text [c])
  | .object entries => .ok (entries.map fun entry => .text entry.1)
  | value => .error (.typeError (str "'" ++ value.typeName ++ str "' object is not iterable"))

end

/-! ### Rows -/

/-- The columns of a community, the `JSON` columns as text. -/
structure CommunityColumns where
  communityId : Str
  cityCode : Str
  canonicalName : Str
  normalizedName : Str
  district : Option Str
  subdistrict : Option Str
  address : Option Str
  latitude : Option Double
  longitude : Option Double
  builtYearMin : Option Int
  builtYearMax : Option Int
  buildingTypes : Str
  sourceRefs : Str

namespace CommunityColumns

/-- `tuple[str, ...]` of loaded items. -/
def texts : List Json → Option (List Str)
  | [] => some []
  | .text s :: items => (texts items).map (s :: ·)
  | _ :: _ => none

/-- An element of a tuple of texts. -/
def checkText : Json → List ErrorItem
  | .text _ => []
  | _ => [⟨[], str "Input should be a valid string"⟩]

/-- The items of the fields before the building types. -/
def errorsBefore (c : CommunityFields) : List ErrorItem :=
  checkNonempty (str "community_id") c.communityId ++
  checkNonempty (str "city_code") c.cityCode ++
  checkNonempty (str "canonical_name") c.canonicalName ++
  checkOptional (checkFloatRange (str "latitude") (-90) 90) c.latitude ++
  checkOptional (checkFloatRange (str "longitude") (-180) 180) c.longitude ++
  checkOptional (checkIntRange (str "built_year_min") 1800 2200) c.builtYearMin ++
  checkOptional (checkIntRange (str "built_year_max") 1800 2200) c.builtYearMax

variable [Runtime]

def ofModel (community : Community) : CommunityColumns where
  communityId := community.communityId
  cityCode := community.cityCode
  canonicalName := community.canonicalName
  normalizedName := normalizeText community.canonicalName
  district := community.district
  subdistrict := community.subdistrict
  address := community.address
  latitude := community.latitude
  longitude := community.longitude
  builtYearMin := community.builtYearMin
  builtYearMax := community.builtYearMax
  buildingTypes := (Json.array (community.buildingTypes.map .text)).dumps
  sourceRefs := (Json.array (community.sourceRefs.map SourceRef.modelDump)).dumps

omit [Runtime] in
/-- The texts that `INSERT` binds. -/
def boundTexts (columns : CommunityColumns) : List Str :=
  [columns.communityId, columns.cityCode, columns.canonicalName, columns.normalizedName] ++
    columns.district.toList ++ columns.subdistrict.toList ++ columns.address.toList ++
    [columns.buildingTypes, columns.sourceRefs]

/-- `_to_model` of the selected columns. -/
def toModel (limit : Nat) (columns : CommunityColumns) : Except ColumnFailure Community := do
  let buildingTypes ← elements (← jsonLoad limit (some columns.buildingTypes) (.array []))
  let loaded ← elements (← jsonLoad limit (some columns.sourceRefs) (.array []))
  let sourceRefs ← loaded.mapM fun item => (SourceRef.ofJson item).mapError (.raised ∘ .validation)
  let fields : CommunityFields :=
    { communityId := columns.communityId
      cityCode := columns.cityCode
      canonicalName := columns.canonicalName
      district := columns.district
      subdistrict := columns.subdistrict
      address := columns.address
      latitude := columns.latitude
      longitude := columns.longitude
      builtYearMin := columns.builtYearMin
      builtYearMax := columns.builtYearMax
      buildingTypes := (texts buildingTypes).getD []
      sourceRefs := sourceRefs }
  if (texts buildingTypes).isSome then fields.validate.mapError .raised
  else
    .error (.raised (.validation
      (errorsBefore fields ++ checkEach (str "building_types") checkText buildingTypes)))

end CommunityColumns

structure CommunityColumnTables where
  community : Table CommunityColumns.communityId
  entityAlias : Table EntityAliasRow.key

def CommunityColumnTables.empty : CommunityColumnTables := ⟨.empty _, .empty _⟩

/-! ### Statements and queries -/

namespace CommunityColumnRepository

def onConflict : OnConflict CommunityColumns.communityId where
  merge old excluded := { old with
    cityCode := excluded.cityCode
    canonicalName := excluded.canonicalName
    normalizedName := excluded.normalizedName
    district := excluded.district
    subdistrict := excluded.subdistrict
    address := excluded.address
    latitude := excluded.latitude
    longitude := excluded.longitude
    builtYearMin := excluded.builtYearMin
    builtYearMax := excluded.builtYearMax
    buildingTypes := excluded.buildingTypes
    sourceRefs := excluded.sourceRefs }
  key_merge same := same

variable [Runtime]

def upsert (tables : CommunityColumnTables) (community : Community) : Except Failure CommunityColumnTables := do
  let columns := CommunityColumns.ofModel community
  bindTexts columns.boundTexts
  return { tables with community := tables.community.upsert onConflict columns }

def upsertAlias (tables : CommunityColumnTables) (item : EntityAlias) : Except Failure CommunityColumnTables := do
  let row := EntityAliasRow.ofModel item
  bindTexts row.texts
  return { tables with entityAlias := tables.entityAlias.upsert CommunityRepository.aliasOnConflict row }

/-- `cursor.fetchone()` as a model. -/
def fetchOne (limit : Nat) : List CommunityColumns → Except ColumnFailure (Option Community)
  | [] => .ok none
  | row :: _ => return some (← row.toModel limit)

def get (limit : Nat) (tables : CommunityColumnTables) (communityId : Str) :
    Except ColumnFailure (Option Community) := do
  (bindTexts [communityId]).mapError .raised
  fetchOne limit (tables.community.rows.filter fun row => row.communityId = communityId)

/-- `ORDER BY canonical_name, community_id`. -/
def nameOrder (row : CommunityColumns) : Str ×ₗ Str := toLex (row.canonicalName, row.communityId)

def findByNormalizedName (limit : Nat) (tables : CommunityColumnTables) (cityCode normalizedName : Str) :
    Except ColumnFailure (List Community) := do
  (bindTexts [cityCode, normalizedName]).mapError .raised
  (orderBy nameOrder (tables.community.rows.filter fun row =>
    row.cityCode = cityCode && row.normalizedName = normalizedName)).mapM (CommunityColumns.toModel limit)

/-- `FROM entity_alias a JOIN community c ON c.community_id = a.entity_id`. -/
def findByAlias (limit : Nat) (tables : CommunityColumnTables) (entityType provider providerEntityId : Str) :
    Except ColumnFailure (Option Community) := do
  (bindTexts [entityType, provider, providerEntityId]).mapError .raised
  fetchOne limit (((join tables.entityAlias.rows tables.community.rows
    fun a c => c.communityId = a.entityId).filter
      fun pair => pair.1.key = (entityType, provider, providerEntityId)).map Prod.snd)

end CommunityColumnRepository

section

variable [Runtime]

def CommunityStatement.executeColumns (tables : CommunityColumnTables) :
    CommunityStatement → Except Failure CommunityColumnTables
  | .upsert community => CommunityColumnRepository.upsert tables community
  | .upsertAlias item => CommunityColumnRepository.upsertAlias tables item

/-- A refused statement writes nothing. -/
def CommunityStatement.applyColumns (tables : CommunityColumnTables) (statement : CommunityStatement) :
    CommunityColumnTables :=
  match statement.executeColumns tables with
  | .ok tables' => tables'
  | .error _ => tables

/-- The columns after a sequence of statements. -/
def CommunityColumnTables.after (statements : List CommunityStatement) : CommunityColumnTables :=
  statements.foldl CommunityStatement.applyColumns .empty

/-- The error as the resolver meets it: an error of reading `JSON` as `failure` tells. -/
def ColumnFailure.met (failure : ColumnFailure → Failure) : ColumnFailure → Failure
  | .raised e => e
  | error => failure error

/-- The repository over the columns. -/
def CommunityColumnTables.lookup (limit : Nat) (failure : ColumnFailure → Failure)
    (tables : CommunityColumnTables) : CommunityLookup where
  findByAlias entityType provider providerEntityId :=
    (CommunityColumnRepository.findByAlias limit tables entityType provider providerEntityId).mapError
      (ColumnFailure.met failure)
  findByNormalizedName cityCode normalizedName :=
    (CommunityColumnRepository.findByNormalizedName limit tables cityCode normalizedName).mapError
      (ColumnFailure.met failure)

end

end CnPropertyAgent
