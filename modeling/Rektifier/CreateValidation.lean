import Rektifier.Catalog

namespace Rektifier

structure LocalSecondaryIndex where
  indexName : String
  keySchema : List KeySchemaElement
  projectionType : Option String
deriving DecidableEq

/-- The fields that CreateTable validates. -/
structure CreateTableRequest where
  tableName : String
  keySchema : List KeySchemaElement
  attributeDefinitions : List AttributeDefinition
  globalSecondaryIndexes : Option (List GlobalSecondaryIndex)
  localSecondaryIndexes : Option (List LocalSecondaryIndex)
  streamEnabled : Option Bool
  billingMode : Option String
  provisionedThroughput : Option (Int × Int)

def validateName (subject name : String) : Except DdlError Unit := do
  rejectIf (name.utf8ByteSize < 3 ∨ 255 < name.utf8ByteSize)
    (subject ++ " `" ++ name ++ "` must be between 3 and 255 characters")
  rejectIf (¬ name.toList.all isValidTableNameChar)
    (subject ++ " `" ++ name ++ "` contains characters outside [a-zA-Z0-9_.-]")

def validateTableNameSimple (name : String) : Except DdlError Unit := validateName "table name" name

def validateTableName (name : String) : Except DdlError Unit := do
  validateTableNameSimple name
  rejectIf ("_rektifier_".toList.isPrefixOf (name.toList.map Char.toLower))
    ("table names with the `_rektifier_` prefix are reserved (got `" ++ name ++ "`)")

def validateLsiIndexName (table name : String) : Except DdlError Unit :=
  validateName ("table `" ++ table ++ "`: LSI IndexName") name

def CreateTableRequest.gsis (req : CreateTableRequest) : List GlobalSecondaryIndex :=
  req.globalSecondaryIndexes.getD []

def CreateTableRequest.lsis (req : CreateTableRequest) : List LocalSecondaryIndex :=
  req.localSecondaryIndexes.getD []

def validateAttributeDefinitionsNonempty (req : CreateTableRequest) : Except DdlError Unit :=
  rejectIf (req.attributeDefinitions = []) ("table `" ++ req.tableName
    ++ "`: AttributeDefinitions must contain at least one entry")

def checkAttrName (table name : String) : Except DdlError Unit :=
  rejectIf (name.utf8ByteSize < 1 ∨ 255 < name.utf8ByteSize)
    ("table `" ++ table ++ "`: attribute name `" ++ name ++ "` must be 1..=255 bytes (got "
      ++ toString name.utf8ByteSize ++ ")")

def validateAttributeNames (req : CreateTableRequest) : Except DdlError Unit := do
  (req.attributeDefinitions.map AttributeDefinition.attributeName).forM (checkAttrName req.tableName)
  let schemas := req.keySchema :: req.gsis.map GlobalSecondaryIndex.keySchema
    ++ req.lsis.map LocalSecondaryIndex.keySchema
  (schemas.flatten.map KeySchemaElement.attributeName).forM (checkAttrName req.tableName)

def validateKeySchemaShape (table : String) (keySchema : List KeySchemaElement) :
    Except DdlError Unit := do
  rejectIf (keySchema = []) ("table `" ++ table
    ++ "`: KeySchema must contain at least one entry (a HASH partition key is required)")
  rejectIf (2 < keySchema.length) ("table `" ++ table ++ "`: KeySchema has "
    ++ toString keySchema.length ++ " entries; the maximum is 2 (HASH + optional RANGE)")

def keySchemaOf (hash : String) (range : Option String) : List KeySchemaElement :=
  ⟨hash, "HASH"⟩ :: (range.map fun attr => ⟨attr, "RANGE"⟩).toList

def splitKeySchema (subject : String) (keySchema : List KeySchemaElement) :
    Except DdlError (Option String × Option String) :=
  keySchema.foldlM (fun found kse => do
    match kse.keyType with
    | "HASH" =>
      rejectIf found.1.isSome (subject ++ ": KeySchema has more than one HASH entry")
      return (some kse.attributeName, found.2)
    | "RANGE" =>
      rejectIf found.2.isSome (subject ++ ": KeySchema has more than one RANGE entry")
      return (found.1, some kse.attributeName)
    | other => throw (.validation (subject ++ ": KeySchema KeyType must be HASH or RANGE (got `"
        ++ other ++ "`)"))) (none, none)

def requireAttr (attr : Option String) (msg : String) : Except DdlError String :=
  match attr with
  | some a => .ok a
  | none => .error (.validation msg)

/-- No attribute is defined twice. -/
def uniqueAttributeTypes (table : String) (ads : List AttributeDefinition) :
    Except DdlError (OrderedMap String KeyType) :=
  ads.foldlM (fun defs ad => do
    let t ← parseAttributeType table ad.attributeName ad.attributeType
    rejectIf (defs.get ad.attributeName).isSome ("table `" ++ table
      ++ "`: AttributeDefinitions has duplicate entry for `" ++ ad.attributeName ++ "`")
    return defs.insert ad.attributeName t) OrderedMap.empty

def CreateTableRequest.keyed (req : CreateTableRequest) (pk : String) (sk : Option String) :
    List String :=
  pk :: sk.toList ++ (req.gsis.flatMap GlobalSecondaryIndex.keySchema
    ++ req.lsis.flatMap LocalSecondaryIndex.keySchema).map KeySchemaElement.attributeName

/-- The base key with its types. Which missing attribute is reported depends on the order of a hash
set. -/
def validateKeySchemaAndAttrs (req : CreateTableRequest) :
    Except DdlError ((String × KeyType) × Option (String × KeyType)) := do
  let table := "table `" ++ req.tableName ++ "`"
  let (pk, sk) ← splitKeySchema table req.keySchema
  let pk ← requireAttr pk (table ++ ": KeySchema must contain exactly one HASH entry")
  let defs ← uniqueAttributeTypes req.tableName req.attributeDefinitions
  let typed ← (req.keyed pk sk).mapM fun attr =>
    match defs.get attr with
    | some t => .ok (attr, t)
    | none => .error (.validation (table ++ ": KeySchema references attribute `" ++ attr
        ++ "` which has no AttributeDefinitions entry"))
  let unused := (req.attributeDefinitions.map AttributeDefinition.attributeName).filter fun n =>
    n ∉ typed.map Prod.fst
  rejectIf (unused ≠ []) (table ++ ": AttributeDefinitions has unused entries: "
    ++ debugNames unused)
  -- every key attribute is defined by now
  let typeOf attr := (attr, (defs.get attr).getD .s)
  return (typeOf pk, sk.map typeOf)

def validateGsiStructures (table : String) :
    List String → List GlobalSecondaryIndex → Except DdlError Unit
  | _, [] => .ok ()
  | seen, gsi :: rest => do
    validateGsiIndexName table gsi.indexName
    rejectIf (gsi.indexName ∈ seen) ("table `" ++ table
      ++ "`: GlobalSecondaryIndexes has duplicate IndexName `" ++ gsi.indexName ++ "`")
    validateGsiKeySchema table gsi
    validateGsiStructures table (gsi.indexName :: seen) rest

def lookupDefined (table kind index role attr : String) (defs : OrderedMap String KeyType) :
    Except DdlError (String × KeyType) :=
  match defs.get attr with
  | some t => .ok (attr, t)
  | none => .error (.validation ("table `" ++ table ++ "`: " ++ kind ++ " `" ++ index ++ "` " ++ role
      ++ " attribute `" ++ attr ++ "` has no AttributeDefinitions entry"))

def validateGsiPlan (table : String) (defs : OrderedMap String KeyType) (basePk : String)
    (baseSk : Option String) (gsi : GlobalSecondaryIndex) : Except DdlError GsiPlan := do
  let hash ← requireAttr (keySchemaAttr "HASH" gsi) ("table `" ++ table ++ "`: GSI `"
    ++ gsi.indexName ++ "`: KeySchema must contain a HASH entry (already enforced by "
    ++ "validate_gsi_key_schema; this is a bug if reached)")
  let partition ← lookupDefined table "GSI" gsi.indexName "partition" hash defs
  let sort ← (keySchemaAttr "RANGE" gsi).mapM fun attr =>
    lookupDefined table "GSI" gsi.indexName "sort" attr defs
  validateProjection table gsi.indexName gsi.projectionType
  rejectIf (hash = basePk ∧ sort = none) ("table `" ++ table ++ "`: GSI `" ++ gsi.indexName
    ++ "` has the same hash-only KeySchema as the base table — would be a redundant index")
  rejectIf (hash = basePk ∧ sort.map Prod.fst = baseSk) ("table `" ++ table ++ "`: GSI `"
    ++ gsi.indexName ++ "` KeySchema equals the base table's KeySchema — would be a redundant index")
  return ⟨gsi.indexName, partition, sort⟩

def validateGsiPlans (req : CreateTableRequest) (basePk : String) (baseSk : Option String) :
    Except DdlError (List GsiPlan) :=
  if req.gsis = [] then .ok []
  else do
    let defs ← attributeTypes req.tableName req.attributeDefinitions
    req.gsis.mapM (validateGsiPlan req.tableName defs basePk baseSk)

def validateLsiKeySchemaShape (table : String) (lsi : LocalSecondaryIndex) :
    Except DdlError (String × String) := do
  let subject := "table `" ++ table ++ "`: LSI `" ++ lsi.indexName ++ "`"
  rejectIf (lsi.keySchema.length ≠ 2) (subject
    ++ ": KeySchema must have exactly 2 entries (HASH + RANGE); got "
    ++ toString lsi.keySchema.length)
  let (hash, range) ← splitKeySchema subject lsi.keySchema
  let hash ← requireAttr hash (subject ++ ": KeySchema must contain exactly one HASH entry")
  let range ← requireAttr range (subject
    ++ ": KeySchema must contain exactly one RANGE entry (LSIs require a sort key)")
  return (hash, range)

def validateLsiProjection (table index : String) : Option String → Except DdlError Unit
  | none | some "ALL" | some "KEYS_ONLY" | some "INCLUDE" => .ok ()
  | some pt => .error (.validation ("table `" ++ table ++ "`: LSI `" ++ index
      ++ "` Projection.ProjectionType `" ++ pt ++ "` is not one of ALL | KEYS_ONLY | INCLUDE"))

/-- The LSIs in turn, with the names and columns taken so far. -/
def validateLsiPlans (table : String) (defs : OrderedMap String KeyType) (pk sk : String) :
    List String → List String → List LocalSecondaryIndex →
      Except DdlError (List (String × String × KeyType))
  | _, _, [] => .ok []
  | seen, taken, lsi :: rest => do
    let subject := "table `" ++ table ++ "`: LSI `" ++ lsi.indexName ++ "` "
    validateLsiIndexName table lsi.indexName
    rejectIf (lsi.indexName ∈ seen) ("table `" ++ table
      ++ "`: LocalSecondaryIndexes has duplicate IndexName `" ++ lsi.indexName ++ "`")
    let (hash, range) ← validateLsiKeySchemaShape table lsi
    rejectIf (hash ≠ pk) (subject ++ "HASH attribute `" ++ hash
      ++ "` must match the base table's HASH attribute `" ++ pk
      ++ "` (LSIs share the base partition key)")
    rejectIf (range = sk) (subject ++ "RANGE attribute `" ++ range
      ++ "` must differ from the base table's RANGE attribute `" ++ sk
      ++ "` (would be a redundant index)")
    rejectIf (range ∈ taken) (subject ++ "sort attribute `" ++ range
      ++ "` collides with an existing column (base PK/SK or another LSI's sort attribute)")
    let sort ← lookupDefined table "LSI" lsi.indexName "sort" range defs
    validateLsiProjection table lsi.indexName lsi.projectionType
    let plans ← validateLsiPlans table defs pk sk (lsi.indexName :: seen) (range :: taken) rest
    return (lsi.indexName, sort) :: plans

def validateLsiStructures (req : CreateTableRequest) (pk : String) (sk : Option String) :
    Except DdlError (List (String × String × KeyType)) :=
  if req.lsis = [] then .ok []
  else do
    rejectIf (5 < req.lsis.length) ("table `" ++ req.tableName ++ "`: LocalSecondaryIndexes has "
      ++ toString req.lsis.length ++ " entries; the maximum is 5")
    let baseSk ← requireAttr sk ("table `" ++ req.tableName
      ++ "`: LocalSecondaryIndexes require the base table to declare a composite key "
      ++ "(HASH + RANGE); this table has no RANGE")
    let defs ← attributeTypes req.tableName req.attributeDefinitions
    validateLsiPlans req.tableName defs pk baseSk [] [pk, baseSk] req.lsis

def validateStreamNotEnabled (req : CreateTableRequest) : Except DdlError Unit :=
  rejectIf (req.streamEnabled = some true) ("StreamSpecification.StreamEnabled = true is not "
    ++ "supported; DDB Streams parity is deferred (PLAN-10 D10)")

def validateBillingMode (req : CreateTableRequest) : Except DdlError Unit := do
  match req.billingMode with
  | none | some "PROVISIONED" | some "PAY_PER_REQUEST" => pure ()
  | some bm => throw (.validation ("BillingMode `" ++ bm
      ++ "` is not one of PROVISIONED | PAY_PER_REQUEST"))
  match req.provisionedThroughput with
  | none => pure ()
  | some (rcu, wcu) => rejectIf (rcu < 1 ∨ wcu < 1) ("ProvisionedThroughput.ReadCapacityUnits and "
      ++ ".WriteCapacityUnits must be >= 1 (got " ++ toString rcu ++ " / " ++ toString wcu ++ ")")

def validateCreateTable (req : CreateTableRequest) : Except DdlError CreateTablePlan := do
  validateTableName req.tableName
  validateAttributeDefinitionsNonempty req
  validateAttributeNames req
  validateKeySchemaShape req.tableName req.keySchema
  let (pk, sk) ← validateKeySchemaAndAttrs req
  validateGsiStructures req.tableName [] req.gsis
  let gsis ← validateGsiPlans req pk.1 (sk.map Prod.fst)
  let lsis ← validateLsiStructures req pk.1 (sk.map Prod.fst)
  validateStreamNotEnabled req
  validateBillingMode req
  return ⟨req.tableName, pk.1, pk.2, sk, lsis, gsis⟩

def taggedRequest (gsis : List String) : CreateTableRequest where
  tableName := "orders"
  keySchema := [⟨"id", "HASH"⟩]
  attributeDefinitions := [⟨"id", "S"⟩, ⟨"tag", "S"⟩]
  globalSecondaryIndexes := some (gsis.map fun name => ⟨name, [⟨"tag", "HASH"⟩], none⟩)
  localSecondaryIndexes := none
  streamEnabled := none
  billingMode := none
  provisionedThroughput := none

def taggedWith (gsis : List String) : CreateTablePlan :=
  ⟨"orders", "id", .s, none, [], gsis.map fun name => ⟨name, ("tag", .s), none⟩⟩

end Rektifier
