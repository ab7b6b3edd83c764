import CnPropertyAgent.Properties.Resolution
import CnPropertyAgent.Storage.CommunityColumns

/-!
The store of columns is the store of rows.

What a query parses out of a `JSON` column is what was dumped into it, for every valid
community, and a dump can be bound exactly when the texts in it can. The columns therefore
answer as the rows do, after any statements, and whatever is known of resolution over the
rows holds over the columns.
-/

namespace CnPropertyAgent

open Python Relational

/-! ### `JSON` columns -/

/-- A dumped reference is validated as itself. -/
theorem SourceRef.ofJson_modelDump {ref : SourceRef} (valid : ref.errors = []) :
    ofJson ref.modelDump = .ok ref := by
  obtain ⟨provider, id, url⟩ := ref
  have unchecked (s : Option Str) : checkOptional (fun _ => []) s = [] := by
    cases s <;> rfl
  let entries : Payload := [(str "provider", .text provider), (str "provider_entity_id", id.elim .null .text),
    (str "provider_url", url.elim .null .text)]
  have distinct : (entries.map Prod.fst).Nodup := by
    show [str "provider", str "provider_entity_id", str "provider_url"].Nodup
    decide
  have found {name : Str} {value : Json} (mem : (name, value) ∈ entries) : entries.get? name = some value :=
    (Payload.get?_eq_some_iff distinct).mpr mem
  have told {loc : Str} {s : Option Str} (mem : (loc, s.elim .null .text) ∈ entries) :
      SaysText entries loc s := by
    cases s with
    | none => exact Or.inr (found mem)
    | some s => exact found mem
  have known : forbidExtra [str "provider", str "provider_entity_id", str "provider_url"] entries = [] := by
    simp [forbidExtra, entries]
  show Validated.unless _ (forbidExtra _ entries) = _
  rw [known, Validated.unless_nil, Validated.map_eq_ok]
  refine ⟨(⟨provider, valid⟩, ⟨id, unchecked id⟩, ⟨url, unchecked url⟩), ?_, rfl⟩
  simp only [Validated.both_eq_ok, requireField_eq_ok, validateText_eq_ok, optionalText_eq_ok]
  exact ⟨⟨_, found (by simp [entries]), rfl⟩, told (by simp [entries]), told (by simp [entries])⟩

/-- A dumped reference is one object of texts. -/
theorem SourceRef.fits_modelDump (ref : SourceRef) (limit : Nat) :
    ref.modelDump.Fits (fun _ => False) (fun _ => True) (limit + 1) := by
  have optional (s : Option Str) : (s.elim Json.null .text).Fits (fun _ => False) (fun _ => True) limit := by
    cases s with
    | none => exact .null
    | some s => exact .text trivial
  refine .object ?_ (fun _ _ => trivial) ?_
  · show [str "provider", str "provider_entity_id", str "provider_url"].Nodup
    decide
  · simp only [List.forall_mem_cons]
    exact ⟨.text trivial, optional _, optional _, fun _ mem => absurd mem List.not_mem_nil⟩

theorem texts_map_text (types : List Str) : CommunityColumns.texts (types.map .text) = some types := by
  induction types with
  | nil => rfl
  | cons s types ih => rw [List.map_cons, CommunityColumns.texts, ih, Option.map_some]

section

variable [Runtime]

/-- A column of dumped items is loaded as the items. -/
theorem jsonLoad_dumps {limit : Nat} {items : List Json}
    (each : ∀ item ∈ items, item.Fits (fun _ => False) (fun _ => True) limit) (default : Json) :
    jsonLoad (limit + 1) (some (Json.array items).dumps) default = .ok (.array items) := by
  have fits : (Json.array items).Fits (fun _ => False) (fun _ => True) (limit + 1) := .array each
  rw [jsonLoad, Json.loads_dumps (fun _ none => none.elim) fits]
  rfl

/-! ### Rows and columns -/

/-- The columns of a row. -/
def CommunityRow.columns (row : CommunityRow) : CommunityColumns :=
  ⟨row.communityId, row.cityCode, row.canonicalName, row.normalizedName, row.district, row.subdistrict,
    row.address, row.latitude, row.longitude, row.builtYearMin, row.builtYearMax,
    (Json.array (row.buildingTypes.map .text)).dumps, (Json.array (row.sourceRefs.map SourceRef.modelDump)).dumps⟩

theorem SourceRef.encodable_dumps_modelDump (ref : SourceRef) :
    ref.modelDump.dumps.Encodable ↔ PlainTexts ref.texts := by
  have optional (s : Option Str) :
      (s.elim Json.null .text).dumps.Encodable ↔ ∀ t ∈ s, t.Encodable := by
    cases s with
    | none => simp [Json.dumps]
    | some s => simp [Json.dumps, Json.encodable_jsonQuote_iff]
  rw [modelDump, Json.encodable_dumps_object]
  simp [SourceRef.texts, optional, Json.dumps, Json.encodable_jsonQuote_iff]

/-- The columns of a row can be bound if its texts can. -/
theorem CommunityRow.plainTexts_columns (row : CommunityRow) :
    PlainTexts row.columns.boundTexts ↔ PlainTexts row.texts := by
  have types : (Json.array (row.buildingTypes.map .text)).dumps.Encodable ↔ PlainTexts row.buildingTypes := by
    rw [Json.encodable_dumps_array, List.forall_mem_map]
    simp only [Json.dumps, Json.encodable_jsonQuote_iff]
    rfl
  have refs : (Json.array (row.sourceRefs.map SourceRef.modelDump)).dumps.Encodable ↔
      PlainTexts (row.sourceRefs.flatMap SourceRef.texts) := by
    rw [Json.encodable_dumps_array, List.forall_mem_map]
    simp only [SourceRef.encodable_dumps_modelDump]
    exact List.forall_mem_flatMap.symm
  simp only [CommunityColumns.boundTexts, CommunityRow.texts, CommunityRow.columns, plainTexts_append,
    plainTexts_cons, plainTexts_nil, and_true, types, refs, and_assoc]

/-- **Columns.** A stored community is read back from its columns. -/
theorem CommunityColumns.toModel_ofModel (limit : Nat) (community : Community) :
    (ofModel community).toModel (limit + 2) = .ok community := by
  have types : jsonLoad (limit + 2) (some (ofModel community).buildingTypes) (.array []) =
      .ok (.array (community.buildingTypes.map .text)) :=
    jsonLoad_dumps (List.forall_mem_map.mpr fun _ _ => .text trivial) _
  have refs : jsonLoad (limit + 2) (some (ofModel community).sourceRefs) (.array []) =
      .ok (.array (community.sourceRefs.map SourceRef.modelDump)) :=
    jsonLoad_dumps (List.forall_mem_map.mpr fun ref _ => ref.fits_modelDump limit) _
  have each : ∀ ref ∈ community.sourceRefs, ref.errors = [] := by
    have fields := (thenModel_eq_nil.mp community.valid).1
    rw [List.append_eq_nil_iff] at fields
    exact checkEach_eq_nil.mp fields.2
  have validated : (community.sourceRefs.map SourceRef.modelDump).mapM (fun item =>
      (SourceRef.ofJson item).mapError (ColumnFailure.raised ∘ Failure.validation)) =
        .ok community.sourceRefs := by
    rw [mapM_eq_ok_iff, List.map_map]
    apply List.map_congr_left
    intro ref mem
    simp only [Function.comp_apply, SourceRef.ofJson_modelDump (each ref mem), Except.mapError]
  rw [toModel, types, refs]
  simp only [bind, Except.bind, elements, validated, texts_map_text, Option.isSome_some, ↓reduceIte,
    Option.getD_some]
  exact congrArg (Except.mapError _) community.validate_fields

/-- The columns are the rows, in the other form. -/
def CommunityColumnTables.Represents (columns : CommunityColumnTables) (tables : CommunityTables) : Prop :=
  columns.community = tables.community.map CommunityRow.columns (fun _ => rfl) ∧
    columns.entityAlias = tables.entityAlias

/-- What the statement makes of the columns once its texts are bound. -/
def CommunityStatement.writtenColumns (columns : CommunityColumnTables) : CommunityStatement → CommunityColumnTables
  | .upsert community =>
      { columns with community :=
          columns.community.upsert CommunityColumnRepository.onConflict (CommunityColumns.ofModel community) }
  | .upsertAlias item =>
      { columns with entityAlias :=
          columns.entityAlias.upsert CommunityRepository.aliasOnConflict (EntityAliasRow.ofModel item) }

/-- A statement is refused in both forms or in neither. -/
theorem CommunityStatement.applyColumns_eq (columns : CommunityColumnTables) (statement : CommunityStatement) :
    statement.applyColumns columns =
      if PlainTexts statement.texts then statement.writtenColumns columns else columns := by
  obtain ⟨bound, executed, plain⟩ : ∃ bound, (statement.executeColumns columns = do
      bindTexts bound
      return statement.writtenColumns columns) ∧ (PlainTexts bound ↔ PlainTexts statement.texts) := by
    cases statement with
    | upsert community => exact ⟨_, rfl, (CommunityRow.ofModel community).plainTexts_columns⟩
    | upsertAlias item => exact ⟨_, rfl, Iff.rfl⟩
  rw [applyColumns, executed]
  by_cases accepted : PlainTexts bound
  · rw [if_pos (plain.mp accepted), bindTexts_ok accepted]
    rfl
  · rw [if_neg fun bindable => accepted (plain.mpr bindable), bindTexts_refused accepted]
    rfl

/-- One statement keeps the two forms together. -/
theorem CommunityColumnTables.Represents.apply {columns : CommunityColumnTables} {tables : CommunityTables}
    (same : columns.Represents tables) (statement : CommunityStatement) :
    (statement.applyColumns columns).Represents (statement.apply tables) := by
  rw [CommunityStatement.applyColumns_eq, CommunityTables.apply_eq]
  split_ifs with plain
  · obtain ⟨community, entityAlias⟩ := columns
    obtain ⟨rfl, rfl⟩ := same
    cases statement with
    | upsert item =>
        have merge (old new : CommunityRow) : (CommunityRepository.onConflict.merge old new).columns =
            CommunityColumnRepository.onConflict.merge old.columns new.columns := rfl
        have keys (row : CommunityRow) : row.columns.communityId = row.communityId := rfl
        have step := Table.map_upsert CommunityRow.columns keys merge tables.community
        exact ⟨(step (CommunityRow.ofModel item)).symm, rfl⟩
    | upsertAlias item => exact ⟨rfl, rfl⟩
  · exact same

theorem CommunityColumnTables.represents_after (statements : List CommunityStatement) :
    (CommunityColumnTables.after statements).Represents (CommunityTables.after statements) := by
  induction statements using List.reverseRecOn with
  | nil => exact ⟨rfl, rfl⟩
  | append_singleton statements statement ih =>
      rw [after, CommunityTables.after, List.foldl_append, List.foldl_append]
      exact ih.apply statement

/-! ### Queries -/

omit [Runtime] in
/-- What could not be bound is raised as it is raised over the rows. -/
theorem whenBound_mapError {α : Type} {texts : List Str} {a : α} :
    (whenBound texts a).mapError ColumnFailure.raised = do
      (bindTexts texts).mapError .raised
      return a := by
  by_cases plain : PlainTexts texts
  · rw [whenBound_eq_ok plain, bindTexts_ok plain]
    rfl
  · rw [whenBound, bindTexts_refused plain]
    rfl

omit [Runtime] in
theorem mapError_met_raised {α : Type} (failure : ColumnFailure → Failure) (answer : Except Failure α) :
    (answer.mapError ColumnFailure.raised).mapError (ColumnFailure.met failure) = answer := by
  cases answer <;> rfl

/-- Rows that encode communities are these communities in either form. -/
theorem mapM_columns {rows : List CommunityRow} (built : EncodedBy CommunityRow.ofModel rows) (limit : Nat) :
    ∃ communities, rows.mapM CommunityRow.toModel = .ok communities ∧
      (rows.map CommunityRow.columns).mapM (CommunityColumns.toModel (limit + 2)) = .ok communities := by
  obtain ⟨communities, rfl⟩ := built.exists_map
  have columns : (communities.map CommunityRow.ofModel).map CommunityRow.columns =
      communities.map CommunityColumns.ofModel := List.map_map
  refine ⟨communities, mapM_decode CommunityRow.toModel_ofModel communities, ?_⟩
  rw [columns, mapM_decode (CommunityColumns.toModel_ofModel limit)]

theorem fetchOne_columns {rows : List CommunityRow} (built : EncodedBy CommunityRow.ofModel rows) (limit : Nat) :
    ∃ found, CommunityRepository.fetchOne rows = .ok found ∧
      CommunityColumnRepository.fetchOne (limit + 2) (rows.map CommunityRow.columns) = .ok found := by
  cases rows with
  | nil => exact ⟨none, rfl, rfl⟩
  | cons row rows =>
      obtain ⟨community, rfl⟩ := built row List.mem_cons_self
      have columns : (CommunityRow.ofModel community).columns = CommunityColumns.ofModel community := rfl
      refine ⟨some community, ?_, ?_⟩
      · rw [CommunityRepository.fetchOne, CommunityRow.toModel_ofModel]
        rfl
      · rw [List.map_cons, CommunityColumnRepository.fetchOne, columns, CommunityColumns.toModel_ofModel]
        rfl

section

variable {columns : CommunityColumnTables} {tables : CommunityTables}

theorem CommunityColumnTables.Represents.get (same : columns.Represents tables) (built : tables.Built)
    (limit : Nat) (communityId : Str) :
    ∃ found, CommunityRepository.get tables communityId = whenBound [communityId] found ∧
      CommunityColumnRepository.get (limit + 2) columns communityId =
        (whenBound [communityId] found).mapError .raised := by
  have rows : columns.community.rows = tables.community.rows.map CommunityRow.columns :=
    congrArg Table.rows same.1
  have selected : EncodedBy CommunityRow.ofModel
      (tables.community.rows.filter fun row => row.communityId = communityId) :=
    built.community.of_subset fun row mem => (List.mem_filter.mp mem).1
  have keyed (row : CommunityRow) :
      decide (row.columns.communityId = communityId) = decide (row.communityId = communityId) := rfl
  obtain ⟨found, ofRows, ofColumns⟩ := fetchOne_columns selected limit
  refine ⟨found, by rw [CommunityRepository.get, ofRows]; rfl, ?_⟩
  rw [CommunityColumnRepository.get, rows, filter_map_of_column keyed, ofColumns]
  exact whenBound_mapError.symm

theorem CommunityColumnTables.Represents.findByNormalizedName (same : columns.Represents tables)
    (built : tables.Built) (limit : Nat) (cityCode normalizedName : Str) :
    ∃ found, CommunityRepository.findByNormalizedName tables cityCode normalizedName =
        whenBound [cityCode, normalizedName] found ∧
      CommunityColumnRepository.findByNormalizedName (limit + 2) columns cityCode normalizedName =
        (whenBound [cityCode, normalizedName] found).mapError .raised := by
  have rows : columns.community.rows = tables.community.rows.map CommunityRow.columns :=
    congrArg Table.rows same.1
  have selected : EncodedBy CommunityRow.ofModel (orderBy CommunityRepository.nameOrder
      (tables.community.rows.filter fun row => row.cityCode = cityCode && row.normalizedName = normalizedName)) :=
    built.community.of_subset fun row mem => (List.mem_filter.mp (mem_orderBy.mp mem)).1
  have named (row : CommunityRow) :
      (decide (row.columns.cityCode = cityCode) && decide (row.columns.normalizedName = normalizedName)) =
        (decide (row.cityCode = cityCode) && decide (row.normalizedName = normalizedName)) := rfl
  have ordered (row : CommunityRow) :
      CommunityColumnRepository.nameOrder row.columns = CommunityRepository.nameOrder row := rfl
  obtain ⟨found, ofRows, ofColumns⟩ := mapM_columns selected limit
  refine ⟨found, by rw [CommunityRepository.findByNormalizedName, ofRows]; rfl, ?_⟩
  rw [CommunityColumnRepository.findByNormalizedName, rows, filter_map_of_column named,
    orderBy_map_of_column ordered, ofColumns]
  exact whenBound_mapError.symm

theorem CommunityColumnTables.Represents.findByAlias (same : columns.Represents tables) (built : tables.Built)
    (limit : Nat) (entityType provider providerEntityId : Str) :
    ∃ found, CommunityRepository.findByAlias tables entityType provider providerEntityId =
        whenBound [entityType, provider, providerEntityId] found ∧
      CommunityColumnRepository.findByAlias (limit + 2) columns entityType provider providerEntityId =
        (whenBound [entityType, provider, providerEntityId] found).mapError .raised := by
  have rows : columns.community.rows = tables.community.rows.map CommunityRow.columns :=
    congrArg Table.rows same.1
  let joined := (join tables.entityAlias.rows tables.community.rows fun a c => c.communityId = a.entityId).filter
    fun pair => pair.1.key = (entityType, provider, providerEntityId)
  have selected : EncodedBy CommunityRow.ofModel (joined.map Prod.snd) := by
    apply built.community.of_subset
    intro row mem
    obtain ⟨pair, inside, rfl⟩ := List.mem_map.mp mem
    obtain ⟨a, -, inside⟩ := List.mem_flatMap.mp (List.mem_filter.mp inside).1
    obtain ⟨c, chosen, rfl⟩ := List.mem_map.mp inside
    exact (List.mem_filter.mp chosen).1
  have moved : ((join columns.entityAlias.rows columns.community.rows fun a c => c.communityId = a.entityId).filter
      fun pair => pair.1.key = (entityType, provider, providerEntityId)).map Prod.snd =
        (joined.map Prod.snd).map CommunityRow.columns := by
    have met (a : EntityAliasRow) (c : CommunityRow) :
        decide (c.columns.communityId = a.entityId) = decide (c.communityId = a.entityId) := rfl
    have keyed (pair : EntityAliasRow × CommunityRow) :
        decide (pair.1.key = (entityType, provider, providerEntityId)) =
          decide (pair.1.key = (entityType, provider, providerEntityId)) := rfl
    rw [rows, same.2, join_map_of_column met, filter_map_of_column keyed, List.map_map, List.map_map]
    rfl
  obtain ⟨found, ofRows, ofColumns⟩ := fetchOne_columns selected limit
  refine ⟨found, by rw [CommunityRepository.findByAlias, ofRows]; rfl, ?_⟩
  rw [CommunityColumnRepository.findByAlias, moved, ofColumns]
  exact whenBound_mapError.symm

end

/-- **The store of columns.** After any statements, and with recursion enough for an object in a
list, every query over the columns returns what it returns over the rows. -/
theorem community_columns_answer (limit : Nat) (statements : List CommunityStatement) :
    let columns := CommunityColumnTables.after statements
    let tables := CommunityTables.after statements
    (∀ communityId, ∃ found, CommunityRepository.get tables communityId = whenBound [communityId] found ∧
      CommunityColumnRepository.get (limit + 2) columns communityId =
        (whenBound [communityId] found).mapError .raised) ∧
    ∀ failure, columns.lookup (limit + 2) failure = tables.lookup := by
  have same := CommunityColumnTables.represents_after statements
  have built := CommunityTables.built_after statements
  refine ⟨same.get built limit, fun failure => ?_⟩
  unfold CommunityColumnTables.lookup CommunityTables.lookup
  congr 1
  · funext entityType provider providerEntityId
    obtain ⟨found, rows, columns⟩ := same.findByAlias built limit entityType provider providerEntityId
    rw [rows, columns, mapError_met_raised]
  · funext cityCode normalizedName
    obtain ⟨found, rows, columns⟩ := same.findByNormalizedName built limit cityCode normalizedName
    rw [rows, columns, mapError_met_raised]

end

end CnPropertyAgent
