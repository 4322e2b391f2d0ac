import Rektifier.GsiState

namespace Rektifier

inductive DdlError where
  | validation (msg : String)
  | resourceInUse (msg : String)
  | resourceNotFound (msg : String)
  | internal (msg : String)
deriving DecidableEq

structure KeySchemaElement where
  attributeName : String
  keyType : String
deriving DecidableEq

structure AttributeDefinition where
  attributeName : String
  attributeType : String
deriving DecidableEq

structure GlobalSecondaryIndex where
  indexName : String
  keySchema : List KeySchemaElement
  projectionType : Option String
deriving DecidableEq

/-- The partition attribute, and the sort attribute if any. -/
structure GsiPlan where
  name : String
  partition : String × KeyType
  sort : Option (String × KeyType)
deriving DecidableEq

def isValidTableNameChar (c : Char) : Bool :=
  c.isAlphanum || c = '_' || c = '.' || c = '-'

def validateGsiIndexName (table name : String) : Except DdlError Unit :=
  if name.utf8ByteSize < 3 ∨ 255 < name.utf8ByteSize then
    .error (.validation ("table `" ++ table ++ "`: GSI IndexName `" ++ name
      ++ "` must be between 3 and 255 characters"))
  else if name.toList.all isValidTableNameChar then .ok ()
  else .error (.validation ("table `" ++ table ++ "`: GSI IndexName `" ++ name
      ++ "` contains characters outside [a-zA-Z0-9_.-]"))

/-- The `HASH` and `RANGE` entries so far. -/
def checkKeySchema (table index : String) (sawHash sawRange : Bool) :
    List KeySchemaElement → Except DdlError Unit
  | [] =>
    if sawHash then .ok ()
    else .error (.validation ("table `" ++ table ++ "`: GSI `" ++ index
      ++ "`: KeySchema must contain exactly one HASH entry"))
  | kse :: rest =>
    match kse.keyType with
    | "HASH" =>
      if sawHash then .error (.validation ("table `" ++ table ++ "`: GSI `" ++ index
        ++ "`: KeySchema has more than one HASH entry"))
      else checkKeySchema table index true sawRange rest
    | "RANGE" =>
      if sawRange then .error (.validation ("table `" ++ table ++ "`: GSI `" ++ index
        ++ "`: KeySchema has more than one RANGE entry"))
      else checkKeySchema table index sawHash true rest
    | other => .error (.validation ("table `" ++ table ++ "`: GSI `" ++ index
        ++ "`: KeySchema KeyType must be HASH or RANGE (got `" ++ other ++ "`)"))

def validateGsiKeySchema (table : String) (gsi : GlobalSecondaryIndex) : Except DdlError Unit :=
  if gsi.keySchema = [] then
    .error (.validation ("table `" ++ table ++ "`: GSI `" ++ gsi.indexName
      ++ "`: KeySchema must contain at least one entry (HASH required)"))
  else if 2 < gsi.keySchema.length then
    .error (.validation ("table `" ++ table ++ "`: GSI `" ++ gsi.indexName ++ "`: KeySchema has "
      ++ toString gsi.keySchema.length ++ " entries; the maximum is 2 (HASH + optional RANGE)"))
  else checkKeySchema table gsi.indexName false false gsi.keySchema

def parseAttributeType (table attr : String) : String → Except DdlError KeyType
  | "S" => .ok .s
  | "N" => .ok .n
  | "B" => .ok .b
  | other => .error (.validation ("table `" ++ table ++ "`: attribute `" ++ attr
      ++ "` has invalid AttributeType `" ++ other ++ "` (expected S | N | B)"))

/-- A name defined twice has its last type. -/
def attributeTypes (table : String) (ads : List AttributeDefinition) :
    Except DdlError (OrderedMap String KeyType) :=
  ads.foldlM (fun defs ad => do
    let t ← parseAttributeType table ad.attributeName ad.attributeType
    return defs.insert ad.attributeName t) OrderedMap.empty

def keySchemaAttr (role : String) (gsi : GlobalSecondaryIndex) : Option String :=
  (gsi.keySchema.reverse.find? fun kse => kse.keyType = role).map KeySchemaElement.attributeName

def lookupKeyAttr (table index role attr : String) (defs : OrderedMap String KeyType) :
    Except DdlError (String × KeyType) :=
  match defs.get attr with
  | some t => .ok (attr, t)
  | none => .error (.validation ("table `" ++ table ++ "`: GSI `" ++ index ++ "` " ++ role
      ++ " attribute `" ++ attr
      ++ "` has no AttributeDefinitions entry in the UpdateTable request"))

def validateProjection (table index : String) : Option String → Except DdlError Unit
  | none | some "ALL" | some "KEYS_ONLY" | some "INCLUDE" => .ok ()
  | some pt => .error (.validation ("table `" ++ table ++ "`: GSI `" ++ index
      ++ "` Projection.ProjectionType `" ++ pt ++ "` is not one of ALL | KEYS_ONLY | INCLUDE"))

/-- `{:?}`; characters beyond Latin-1 are taken as printable. -/
def debugText (s : String) : String :=
  "\"" ++ String.join (s.toList.map fun c => match c.toNat with
    | 0 => "\\0"
    | 9 => "\\t"
    | 10 => "\\n"
    | 13 => "\\r"
    | 34 => "\\\""
    | 92 => "\\\\"
    | n => if n < 32 ∨ 127 ≤ n ∧ n < 160 ∨ n = 173 then
        "\\u\x7b" ++ String.ofList (Nat.toDigits 16 n) ++ "\x7d"
      else c.toString) ++ "\""

def debugNames (l : List String) : String := "[" ++ ", ".intercalate (l.map debugText) ++ "]"

def rejectIf (bad : Prop) [Decidable bad] (msg : String) : Except DdlError Unit :=
  if bad then .error (.validation msg) else .ok ()

def requireHash (table : String) (gsi : GlobalSecondaryIndex) : Except DdlError String :=
  match keySchemaAttr "HASH" gsi with
  | some attr => .ok attr
  | none => .error (.validation ("table `" ++ table ++ "`: GSI `" ++ gsi.indexName
      ++ "`: KeySchema must contain a HASH entry"))

def lookupSort (table : String) (gsi : GlobalSecondaryIndex) (defs : OrderedMap String KeyType) :
    Except DdlError (Option (String × KeyType)) :=
  match keySchemaAttr "RANGE" gsi with
  | some attr => (lookupKeyAttr table gsi.indexName "sort" attr defs).map some
  | none => .ok none

def validateUpdateTableGsiCreate (table : String) (gsi : GlobalSecondaryIndex)
    (attributeDefinitions : Option (List AttributeDefinition)) (basePk : String)
    (baseSk : Option String) (existing : List String) : Except DdlError GsiPlan := do
  validateGsiIndexName table gsi.indexName
  rejectIf (gsi.indexName ∈ existing)
    ("table `" ++ table ++ "`: GSI `" ++ gsi.indexName ++ "` already exists")
  validateGsiKeySchema table gsi
  let defs ← attributeTypes table (attributeDefinitions.getD [])
  let hash ← requireHash table gsi
  let partition ← lookupKeyAttr table gsi.indexName "partition" hash defs
  let sort ← lookupSort table gsi defs
  validateProjection table gsi.indexName gsi.projectionType
  rejectIf (hash = basePk ∧ sort = none) ("table `" ++ table ++ "`: GSI `" ++ gsi.indexName
    ++ "` has the same hash-only KeySchema as the base table — would be a redundant index")
  rejectIf (hash = basePk ∧ sort.map Prod.fst = baseSk) ("table `" ++ table ++ "`: GSI `"
    ++ gsi.indexName ++ "` KeySchema equals the base table's KeySchema — would be a redundant index")
  return ⟨gsi.indexName, partition, sort⟩

example : validateUpdateTableGsiCreate "orders" ⟨"by-tag", [⟨"tag", "HASH"⟩], some "ALL"⟩
    (some [⟨"tag", "S"⟩]) "id" none [] = .ok ⟨"by-tag", ("tag", .s), none⟩ := by decide

end Rektifier
