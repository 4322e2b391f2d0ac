import Rektifier.MetadataRows

namespace Rektifier

structure GsiDeclaration extends GlobalSecondaryIndex where
  nonKeyAttributes : Option (List String)
deriving DecidableEq

structure LsiDeclaration extends LocalSecondaryIndex where
  nonKeyAttributes : Option (List String)
deriving DecidableEq

/-- With all that is stored of it. -/
structure CreateTableBody where
  tableName : String
  keySchema : List KeySchemaElement
  attributeDefinitions : List AttributeDefinition
  globalSecondaryIndexes : Option (List GsiDeclaration)
  localSecondaryIndexes : Option (List LsiDeclaration)
  streamEnabled : Option Bool
  billingMode : Option String
  provisionedThroughput : Option (Int × Int)
  tags : Option (List (String × String))

/-- A tag given twice keeps its last value. -/
def tagsToJson (tags : Option (List (String × String))) : Json :=
  .obj ((OrderedMap.ofList (tags.getD [])).entries.map fun t => (t.1, .str t.2))

def buildLsiSpecs (hex8 : String → String) (pgTable : String)
    (plans : List (String × String × KeyType)) (declared : List LsiDeclaration) : List LsiRecord :=
  List.zipWith (fun l decl =>
    { name := l.1
      sortAttr := l.2.1
      sortType := l.2.2
      sortPgCol := l.2.1
      indexName := deriveLsiIndexName hex8 pgTable l.1
      projectionType := decl.projectionType
      projectionNonKeyAttrs := decl.nonKeyAttributes
      serveable := true
      unserveableReason := none }) plans declared

def buildGsiSpecs (hex8 : String → String) (pgTable : String) (plans : List GsiPlan)
    (declared : List GsiDeclaration) : List GsiEntry :=
  List.zipWith (fun g decl =>
    { name := g.name
      partitionAttr := g.partition.1
      partitionType := g.partition.2
      partitionPgCol := g.partition.1
      sortAttr := g.sort.map Prod.fst
      sortType := g.sort.map Prod.snd
      sortPgCol := g.sort.map Prod.fst
      indexName := deriveGsiIndexName hex8 pgTable g.name
      projectionType := decl.projectionType
      projectionNonKeyAttrs := decl.nonKeyAttributes
      mode := .generated
      serveable := true
      unserveableReason := none }) plans declared

namespace CreateTableBody

variable (body : CreateTableBody)

def gsis : List GsiDeclaration := body.globalSecondaryIndexes.getD []

def lsis : List LsiDeclaration := body.localSecondaryIndexes.getD []

def request : CreateTableRequest where
  tableName := body.tableName
  keySchema := body.keySchema
  attributeDefinitions := body.attributeDefinitions
  globalSecondaryIndexes :=
    body.globalSecondaryIndexes.map fun l => l.map GsiDeclaration.toGlobalSecondaryIndex
  localSecondaryIndexes :=
    body.localSecondaryIndexes.map fun l => l.map LsiDeclaration.toLocalSecondaryIndex
  streamEnabled := body.streamEnabled
  billingMode := body.billingMode
  provisionedThroughput := body.provisionedThroughput

def insertCreating (hex8 : String → String) (plan : CreateTablePlan) (now : Int) : MetadataRow :=
  let pgTable := sanitizePgTableName hex8 plan.tableName
  { tableName := plan.tableName
    pgTable := pgTable
    jsonbCol := "data"
    pkAttr := plan.pkAttr
    pkType := plan.pkType.tag
    skAttr := plan.sk.map Prod.fst
    skType := plan.sk.map fun s => s.2.tag
    status := "CREATING"
    serveable := false
    unserveableReason := none
    lastModifiedAtMs := now
    lastModifiedBy := "ddl"
    creationDateMs := now
    tags := tagsToJson body.tags
    billingMode := body.billingMode
    provisionedRcu := body.provisionedThroughput.map Prod.fst
    provisionedWcu := body.provisionedThroughput.map Prod.snd
    lsiSpecs := lsiSpecsToJson (buildLsiSpecs hex8 pgTable plan.lsis body.lsis)
    gsiSpecs := gsiSpecsToJson (buildGsiSpecs hex8 pgTable plan.gsis body.gsis) }

end CreateTableBody

def MetadataRow.updateToActive (row : MetadataRow) (now : Int) : MetadataRow :=
  { row with
    status := "ACTIVE"
    serveable := true
    unserveableReason := none
    lastModifiedAtMs := now
    lastModifiedBy := "ddl" }

def CreateTableBody.createdRow (body : CreateTableBody) (hex8 : String → String)
    (plan : CreateTablePlan) (now : Int) : MetadataRow :=
  (body.insertCreating hex8 plan now).updateToActive now

def TableStatus.toWireStr : TableStatus → String
  | creating | failedCreating => "CREATING"
  | active | degraded => "ACTIVE"
  | updating | failedUpdating => "UPDATING"
  | deleting | failedDeleting => "DELETING"

structure Projection where
  projectionType : Option String
  nonKeyAttributes : Option (List String)
deriving DecidableEq

structure LsiDescription where
  indexName : String
  keySchema : List KeySchemaElement
  projection : Projection
deriving DecidableEq

structure GsiDescription where
  indexName : String
  indexStatus : String
  keySchema : List KeySchemaElement
  projection : Projection
deriving DecidableEq

structure TableDescription where
  tableName : String
  tableStatus : String
  tableArn : String
  creationDateMs : Int
  keySchema : List KeySchemaElement
  attributeDefinitions : List AttributeDefinition
  provisionedThroughput : Option (Option Int × Option Int)
  billingModeSummary : Option String
  globalSecondaryIndexes : Option (List GsiDescription)
  localSecondaryIndexes : Option (List LsiDescription)

def synthesizeTableArn (name : String) : String := "arn:aws:dynamodb:::rektifier-table/" ++ name

/-- A sort key counts with its type. -/
def sortKey (attr : Option String) (keyType : Option KeyType) : Option (String × KeyType) :=
  match attr, keyType with
  | some attr, some keyType => some (attr, keyType)
  | _, _ => none

def CatalogSchema.keys (s : CatalogSchema) : List (String × KeyType) :=
  (s.pkAttr, s.pkType) :: (sortKey s.skAttr s.skType).toList

def GsiEntry.keys (g : GsiEntry) : List (String × KeyType) :=
  (g.partitionAttr, g.partitionType) :: (sortKey g.sortAttr g.sortType).toList

def declaredProjection (projectionType : Option String) (nonKeyAttributes : Option (List String)) :
    Projection := ⟨projectionType.or (some "ALL"), nonKeyAttributes⟩

def LsiRecord.description (pkAttr : String) (l : LsiRecord) : LsiDescription where
  indexName := l.name
  keySchema := keySchemaOf pkAttr (some l.sortAttr)
  projection := declaredProjection l.projectionType l.projectionNonKeyAttrs

def GsiEntry.description (g : GsiEntry) : GsiDescription where
  indexName := g.name
  indexStatus := if g.serveable then "ACTIVE" else "CREATING"
  keySchema := keySchemaOf g.partitionAttr g.sortAttr
  projection := declaredProjection g.projectionType g.projectionNonKeyAttrs

/-- `None` for no indexes, the others by name. -/
def indexDescriptions {α : Type} (name : α → String) (descs : List α) : Option (List α) :=
  if descs = [] then none else some (descs.insertionSort fun a b => name a ≤ name b)

namespace TableRecord

variable (e : TableRecord) (gsis : List GsiEntry)

/-- The attributes of all keys, each once but for a base key of one attribute twice. -/
def describedAttrs : List (String × KeyType) :=
  let indexed := e.lsis.map (fun l => (l.sortAttr, l.sortType)) ++ gsis.flatMap GsiEntry.keys
  indexed.foldl (fun acc c => if c.1 ∈ acc.map Prod.fst then acc else acc ++ [c]) e.schema.keys

/-- What DescribeTable says, the GSIs in the map's order. -/
def tableDescriptionFromEntry : TableDescription where
  tableName := e.schema.name
  tableStatus := e.status.toWireStr
  tableArn := synthesizeTableArn e.schema.name
  creationDateMs := e.creationDateMs
  keySchema := keySchemaOf e.schema.pkAttr
    ((sortKey e.schema.skAttr e.schema.skType).map Prod.fst)
  attributeDefinitions := (e.describedAttrs gsis).map fun c => ⟨c.1, c.2.tag⟩
  provisionedThroughput :=
    if e.provisionedRcu.isSome ∨ e.provisionedWcu.isSome then
      some (e.provisionedRcu, e.provisionedWcu)
    else none
  billingModeSummary := e.billingMode
  globalSecondaryIndexes :=
    indexDescriptions GsiDescription.indexName (gsis.map GsiEntry.description)
  localSecondaryIndexes := indexDescriptions LsiDescription.indexName
    (e.lsis.map (LsiRecord.description e.schema.pkAttr))

end TableRecord

end Rektifier
