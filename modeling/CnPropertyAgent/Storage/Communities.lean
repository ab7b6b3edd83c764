import CnPropertyAgent.Relational.Codec
import CnPropertyAgent.Relational.Query
import CnPropertyAgent.Relational.Statements
import CnPropertyAgent.Storage.Schema
import CnPropertyAgent.Utils

/-!
Communities and the names that providers have for them.

Whatever is upserted, and in whatever order, the tables hold encodings of valid
models (`CommunityTables.Built`), so that every query whose texts can be bound returns, with
the communities last stored under their ids.
-/

namespace CnPropertyAgent

open Python Relational

variable [Runtime]

/-! ### `community` and `entity_alias` -/

/-- The `INTEGER` columns hold every valid year. A `JSON` column holds the dump of a value
and is read back by undoing it. -/
structure CommunityRow where
  communityId : Str
  cityCode : Str
  canonicalName : Str
  normalizedName : Str
  district : Option Str
  subdistrict : Option Str
  address : Option Str
  latitude : Option Double
  longitude : Option Double
  builtYearMin : Option Int
  builtYearMax : Option Int
  buildingTypes : List Str
  sourceRefs : List SourceRef

/-- The texts of a reference. -/
def SourceRef.texts (ref : SourceRef) : List Str :=
  ref.provider :: (ref.providerEntityId.toList ++ ref.providerUrl.toList)

/-- `SourceRef.model_validate(item)`. -/
def SourceRef.validate (ref : SourceRef) : Except Failure SourceRef :=
  if ref.errors = [] then .ok ref else .error (.validation ref.errors)

namespace CommunityRow

def ofModel (community : Community) : CommunityRow :=
  ⟨community.communityId, community.cityCode, community.canonicalName,
    normalizeText community.canonicalName, community.district, community.subdistrict,
    community.address, community.latitude, community.longitude, community.builtYearMin,
    community.builtYearMax, community.buildingTypes, community.sourceRefs⟩

/-- The texts that `INSERT` binds. A `JSON` column is bound as one text, which has the characters of the
texts in it. -/
def texts (row : CommunityRow) : List Str :=
  [row.communityId, row.cityCode, row.canonicalName, row.normalizedName] ++ row.district.toList ++
    row.subdistrict.toList ++ row.address.toList ++ row.buildingTypes ++ row.sourceRefs.flatMap SourceRef.texts

/-- `_to_model` of the selected columns. -/
def toModel (row : CommunityRow) : Except Failure Community := do
  let sourceRefs ← row.sourceRefs.mapM SourceRef.validate
  CommunityFields.validate
    { communityId := row.communityId
      cityCode := row.cityCode
      canonicalName := row.canonicalName
      district := row.district
      subdistrict := row.subdistrict
      address := row.address
      latitude := row.latitude
      longitude := row.longitude
      builtYearMin := row.builtYearMin
      builtYearMax := row.builtYearMax
      buildingTypes := row.buildingTypes
      sourceRefs := sourceRefs }

@[simp] theorem toModel_ofModel (community : Community) : (ofModel community).toModel = .ok community := by
  have each : ∀ ref ∈ community.sourceRefs, ref.errors = [] := by
    have fields := (thenModel_eq_nil.mp community.valid).1
    rw [List.append_eq_nil_iff] at fields
    exact checkEach_eq_nil.mp fields.2
  have refs : community.sourceRefs.mapM SourceRef.validate = .ok community.sourceRefs := by
    rw [mapM_eq_ok_iff]
    apply List.map_congr_left
    intro ref mem
    exact if_pos (each ref mem)
  simp only [toModel, ofModel, refs, bind, Except.bind]
  exact community.validate_fields

theorem ofModel_injective : Function.Injective ofModel := injective_of_decode toModel_ofModel

end CommunityRow

structure EntityAliasRow where
  entityType : Str
  entityId : Str
  provider : Str
  providerEntityId : Str
  providerUrl : Option Str

namespace EntityAliasRow

/-- `PRIMARY KEY(entity_type, provider, provider_entity_id)`. -/
def key (row : EntityAliasRow) : Str × Str × Str := (row.entityType, row.provider, row.providerEntityId)

def ofModel (item : EntityAlias) : EntityAliasRow :=
  ⟨item.entityType, item.entityId, item.provider, item.providerEntityId, item.providerUrl⟩

/-- The texts that `INSERT` binds. -/
def texts (row : EntityAliasRow) : List Str :=
  [row.entityType, row.entityId, row.provider, row.providerEntityId] ++ row.providerUrl.toList

end EntityAliasRow

structure CommunityTables where
  community : Table CommunityRow.communityId
  entityAlias : Table EntityAliasRow.key

def CommunityTables.empty : CommunityTables := ⟨.empty _, .empty _⟩

/-! ### Statements -/

namespace CommunityRepository

omit [Runtime] in
def onConflict : OnConflict CommunityRow.communityId where
  merge old excluded := { old with
    cityCode := excluded.cityCode
    canonicalName := excluded.canonicalName
    normalizedName := excluded.normalizedName
    district := excluded.district
    subdistrict := excluded.subdistrict
    address := excluded.address
    latitude := excluded.latitude
    longitude := excluded.longitude
    builtYearMin := excluded.builtYearMin
    builtYearMax := excluded.builtYearMax
    buildingTypes := excluded.buildingTypes
    sourceRefs := excluded.sourceRefs }
  key_merge same := same

omit [Runtime] in
/-- The `SET` list names every column outside the key. -/
theorem onConflict_overwrites : onConflict.Overwrites := by
  rintro ⟨⟩ ⟨⟩ same
  cases same
  rfl

def upsert (tables : CommunityTables) (community : Community) : Except Failure CommunityTables := do
  let row := CommunityRow.ofModel community
  bindTexts row.texts
  return { tables with community := tables.community.upsert onConflict row }

def aliasOnConflict : OnConflict EntityAliasRow.key where
  merge old excluded := { old with
    entityId := excluded.entityId
    providerUrl := excluded.providerUrl }
  key_merge same := same

omit [Runtime] in
/-- The `SET` list names every column outside the key. -/
theorem aliasOnConflict_overwrites : aliasOnConflict.Overwrites := by
  rintro ⟨⟩ ⟨⟩ same
  cases same
  rfl

def upsertAlias (tables : CommunityTables) (item : EntityAlias) : Except Failure CommunityTables := do
  let row := EntityAliasRow.ofModel item
  bindTexts row.texts
  return { tables with entityAlias := tables.entityAlias.upsert aliasOnConflict row }

/-! ### Queries -/

/-- `cursor.fetchone()` as a model. -/
def fetchOne : List CommunityRow → Except Failure (Option Community)
  | [] => .ok none
  | row :: _ => return some (← row.toModel)

def get (tables : CommunityTables) (communityId : Str) : Except Failure (Option Community) := do
  bindTexts [communityId]
  fetchOne (tables.community.rows.filter fun row => row.communityId = communityId)

/-- `ORDER BY canonical_name, community_id`. -/
def nameOrder (row : CommunityRow) : Str ×ₗ Str := toLex (row.canonicalName, row.communityId)

def findByNormalizedName (tables : CommunityTables) (cityCode normalizedName : Str) :
    Except Failure (List Community) := do
  bindTexts [cityCode, normalizedName]
  (orderBy nameOrder (tables.community.rows.filter fun row =>
    row.cityCode = cityCode && row.normalizedName = normalizedName)).mapM CommunityRow.toModel

/-- `FROM entity_alias a JOIN community c ON c.community_id = a.entity_id`. -/
def findByAlias (tables : CommunityTables) (entityType provider providerEntityId : Str) :
    Except Failure (Option Community) := do
  bindTexts [entityType, provider, providerEntityId]
  fetchOne (((join tables.entityAlias.rows tables.community.rows fun a c => c.communityId = a.entityId).filter
    fun pair => pair.1.key = (entityType, provider, providerEntityId)).map Prod.snd)

end CommunityRepository

/-! ### What the tables hold -/

/-- The community is stored, as it is. -/
def CommunityTables.Holds (tables : CommunityTables) (community : Community) : Prop :=
  CommunityRepository.get tables community.communityId = .ok (some community)

/-- The provider's name for the community. -/
def CommunityTables.MapsAlias (tables : CommunityTables) (provider providerEntityId : Str)
    (community : Community) : Prop :=
  ∃ row ∈ tables.entityAlias.rows, row.key = (str "community", provider, providerEntityId) ∧
    row.entityId = community.communityId

/-- Every row is the encoding of a valid model. -/
structure CommunityTables.Built (tables : CommunityTables) : Prop where
  community : EncodedBy CommunityRow.ofModel tables.community.rows
  entityAlias : EncodedBy EntityAliasRow.ofModel tables.entityAlias.rows

inductive CommunityStatement where
  | upsert (community : Community)
  | upsertAlias (item : EntityAlias)

namespace CommunityStatement

def execute (tables : CommunityTables) : CommunityStatement → Except Failure CommunityTables
  | .upsert community => CommunityRepository.upsert tables community
  | .upsertAlias item => CommunityRepository.upsertAlias tables item

/-- The texts that the statement binds. -/
def texts : CommunityStatement → List Str
  | .upsert community => (CommunityRow.ofModel community).texts
  | .upsertAlias item => (EntityAliasRow.ofModel item).texts

/-- What the statement makes of the tables once its texts are bound. -/
def written (tables : CommunityTables) : CommunityStatement → CommunityTables
  | .upsert community =>
      { tables with community :=
          tables.community.upsert CommunityRepository.onConflict (CommunityRow.ofModel community) }
  | .upsertAlias item =>
      { tables with entityAlias :=
          tables.entityAlias.upsert CommunityRepository.aliasOnConflict (EntityAliasRow.ofModel item) }

/-- A refused statement writes nothing. -/
def apply (tables : CommunityTables) (statement : CommunityStatement) : CommunityTables :=
  match execute tables statement with
  | .ok tables' => tables'
  | .error _ => tables

end CommunityStatement

/-- The tables after a sequence of statements. -/
def CommunityTables.after (statements : List CommunityStatement) : CommunityTables :=
  statements.foldl CommunityStatement.apply .empty

namespace CommunityTables

open CommunityRepository

variable {tables : CommunityTables}

/-- A statement writes its row if its texts can be bound. -/
theorem apply_eq (tables : CommunityTables) (statement : CommunityStatement) :
    statement.apply tables = if PlainTexts statement.texts then statement.written tables else tables := by
  have executed : statement.execute tables = (do
      bindTexts statement.texts
      return statement.written tables) := by
    cases statement <;> rfl
  rw [CommunityStatement.apply, executed]
  by_cases plain : PlainTexts statement.texts
  · rw [if_pos plain, bindTexts_ok plain]
    rfl
  · rw [if_neg plain, bindTexts_refused plain]
    rfl

theorem Built.apply (built : tables.Built) (statement : CommunityStatement) :
    (statement.apply tables).Built := by
  rw [apply_eq]
  split_ifs with plain
  · cases statement with
    | upsert community =>
        exact ⟨built.community.upsert_of_overwrites onConflict_overwrites community, built.entityAlias⟩
    | upsertAlias item =>
        exact ⟨built.community, built.entityAlias.upsert_of_overwrites aliasOnConflict_overwrites item⟩
  · exact built

theorem Built.foldl (built : tables.Built) (statements : List CommunityStatement) :
    (statements.foldl CommunityStatement.apply tables).Built := by
  induction statements generalizing tables with
  | nil => exact built
  | cons statement statements ih => exact ih (built.apply statement)

theorem built_after (statements : List CommunityStatement) : (after statements).Built := by
  have empty : CommunityTables.empty.Built := ⟨encodedBy_nil, encodedBy_nil⟩
  exact empty.foldl statements

theorem fetchOne_get? (built : tables.Built) (communityId : Str) :
    ∃ found, fetchOne (tables.community.get? communityId).toList = .ok found ∧
      tables.community.get? communityId = found.map CommunityRow.ofModel := by
  cases stored : tables.community.get? communityId with
  | none => exact ⟨none, rfl, rfl⟩
  | some row =>
      obtain ⟨community, rfl⟩ := built.community row (Table.mem_of_get? stored)
      refine ⟨some community, ?_, rfl⟩
      rw [Option.toList_some, fetchOne, CommunityRow.toModel_ofModel]
      rfl

theorem holds_iff (built : tables.Built) {community : Community} :
    tables.Holds community ↔ CommunityRow.ofModel community ∈ tables.community.rows := by
  obtain ⟨found, fetched, stored⟩ := fetchOne_get? built community.communityId
  have key : (CommunityRow.ofModel community).communityId = community.communityId := rfl
  rw [Holds, CommunityRepository.get, bindTexts_ok (plainTexts_singleton.mpr community.communityId_valid.1),
    Table.filter_key]
  change fetchOne (tables.community.get? community.communityId).toList = .ok (some community) ↔ _
  rw [fetched, Except.ok.injEq]
  constructor
  · rintro rfl
    exact Table.mem_of_get? stored
  · intro mem
    have same := Table.get?_key mem
    rw [key, stored] at same
    cases found with
    | none => cases same
    | some other => rw [CommunityRow.ofModel_injective (Option.some.inj same)]

/-- A name is looked up among the stored communities of the city. -/
theorem findByNormalizedName_ok (built : tables.Built) (cityCode normalizedName : Str) :
    ∃ candidates, findByNormalizedName tables cityCode normalizedName =
        whenBound [cityCode, normalizedName] candidates ∧
      (candidates.map (·.communityId)).Nodup ∧ ∀ community, community ∈ candidates ↔
        tables.Holds community ∧ community.cityCode = cityCode ∧
          normalizeText community.canonicalName = normalizedName := by
  have selected : EncodedBy CommunityRow.ofModel (orderBy nameOrder (tables.community.rows.filter
      fun row => row.cityCode = cityCode && row.normalizedName = normalizedName)) := by
    apply built.community.of_subset
    intro row mem
    exact (List.mem_filter.mp (mem_orderBy.mp mem)).1
  obtain ⟨candidates, found, rows⟩ := selected.mapM_decode CommunityRow.toModel_ofModel
  refine ⟨candidates, by rw [findByNormalizedName, found]; rfl, ?_, ?_⟩
  · have distinct : ((orderBy nameOrder (tables.community.rows.filter fun row =>
        row.cityCode = cityCode && row.normalizedName = normalizedName)).map
          CommunityRow.communityId).Nodup := by
      apply ((perm_orderBy _ _).map _).nodup_iff.mpr
      exact tables.community.keys_nodup.sublist (List.filter_sublist.map _)
    rw [← rows, List.map_map] at distinct
    exact distinct
  · intro community
    rw [mem_iff_of_map_eq CommunityRow.ofModel_injective rows, mem_orderBy, List.mem_filter,
      Bool.and_eq_true, decide_eq_true_eq, decide_eq_true_eq, holds_iff built]
    rfl

/-- An alias is followed to the community it names, if that is stored. -/
theorem findByAlias_ok (built : tables.Built) (provider providerEntityId : Str) :
    ∃ found, findByAlias tables (str "community") provider providerEntityId =
        whenBound [provider, providerEntityId] found ∧
      ∀ community, found = some community ↔
        tables.MapsAlias provider providerEntityId community ∧ tables.Holds community := by
  have rows := map_snd_filter_join tables.entityAlias.rows tables.community EntityAliasRow.entityId
    fun a => a.key = (str "community", provider, providerEntityId)
  rw [Table.filter_key] at rows
  have bound (answer : Except Failure (Option Community)) :
      (do bindTexts [str "community", provider, providerEntityId]; answer) =
        (do bindTexts [provider, providerEntityId]; answer) := by
    have iff : PlainTexts [str "community", provider, providerEntityId] ↔
        PlainTexts [provider, providerEntityId] := by simp
    simp only [bindTexts, iff]
  rw [findByAlias, rows, bound]
  cases named : tables.entityAlias.get? (str "community", provider, providerEntityId) with
  | none =>
      refine ⟨none, rfl, ?_⟩
      intro community
      refine iff_of_false nofun ?_
      rintro ⟨⟨row, mem, key, -⟩, -⟩
      exact Table.get?_eq_none_iff.mp named row mem key
  | some row =>
      obtain ⟨found, fetched, stored⟩ := fetchOne_get? built row.entityId
      refine ⟨found, by rw [Option.toList_some, List.flatMap_singleton, fetched]; rfl, ?_⟩
      intro community
      rw [holds_iff built]
      constructor
      · rintro rfl
        refine ⟨⟨row, Table.mem_of_get? named, Table.key_of_get? named, ?_⟩, Table.mem_of_get? stored⟩
        exact (Table.key_of_get? stored).symm
      · rintro ⟨⟨other, mem, key, names⟩, held⟩
        have same := Table.get?_key mem
        rw [key, named, Option.some.injEq] at same
        subst same
        have again := Table.get?_key held
        rw [show (CommunityRow.ofModel community).communityId = row.entityId from names.symm, stored] at again
        cases found with
        | none => cases again
        | some other => rw [CommunityRow.ofModel_injective (Option.some.inj again)]

/-- Providers and their ids for entities are never empty. -/
theorem ne_nil_of_mapsAlias (built : tables.Built) {provider providerEntityId : Str} {community : Community}
    (maps : tables.MapsAlias provider providerEntityId community) :
    provider ≠ [] ∧ providerEntityId ≠ [] := by
  obtain ⟨row, mem, key, -⟩ := maps
  obtain ⟨item, rfl⟩ := built.entityAlias row mem
  have valid := item.valid
  simp only [EntityAliasFields.errors, List.append_eq_nil_iff, checkNonempty_eq_nil, and_assoc] at valid
  obtain ⟨-, -, -, -, -, hprovider, -, hid⟩ := valid
  simp only [EntityAliasRow.key, EntityAliasRow.ofModel, Prod.mk.injEq] at key
  obtain ⟨-, rfl, rfl⟩ := key
  exact ⟨hprovider, hid⟩

end CommunityTables

end CnPropertyAgent
