import Rektifier.Introspection

namespace Rektifier

variable {key : String}

inductive CatalogError where
  | pool (msg : String)
  | db (source : String)
  | malformedRow (tableName reason : String)
deriving DecidableEq

namespace TableStatus

def asInternalStr : TableStatus → String
  | creating => "CREATING"
  | failedCreating => "FAILED_CREATING"
  | active => "ACTIVE"
  | degraded => "DEGRADED"
  | updating => "UPDATING"
  | failedUpdating => "FAILED_UPDATING"
  | deleting => "DELETING"
  | failedDeleting => "FAILED_DELETING"

def parse (s : String) : Option TableStatus :=
  [creating, failedCreating, active, degraded, updating, failedUpdating, deleting,
    failedDeleting].find? fun status => status.asInternalStr = s

/-- Transitional rows belong to the DDL worker. -/
def isReconcilerOwned : TableStatus → Bool
  | creating | updating | deleting => false
  | _ => true

theorem parse_asInternalStr (status : TableStatus) : parse status.asInternalStr = some status := by
  cases status <;> decide

end TableStatus

namespace GsiMode

def asStr : GsiMode → String
  | generated => "generated"
  | dualWrite => "dual_write"

def parse : String → Option GsiMode
  | "generated" => some generated
  | "dual_write" => some dualWrite
  | _ => none

end GsiMode

/-- The spec with what DescribeTable gives back of its declaration. -/
structure LsiRecord extends LsiSpec where
  projectionType : Option String
  projectionNonKeyAttrs : Option (List String)
deriving DecidableEq

/-- The parts of the sort key are stored one by one. -/
structure GsiEntry where
  name : String
  partitionAttr : String
  partitionType : KeyType
  partitionPgCol : String
  sortAttr : Option String
  sortType : Option KeyType
  sortPgCol : Option String
  indexName : String
  projectionType : Option String
  projectionNonKeyAttrs : Option (List String)
  mode : GsiMode
  serveable : Bool
  unserveableReason : Option String
deriving DecidableEq

structure MetadataRow where
  tableName : String
  pgTable : String
  jsonbCol : String
  pkAttr : String
  pkType : String
  skAttr : Option String
  skType : Option String
  status : String
  serveable : Bool
  unserveableReason : Option String
  lastModifiedAtMs : Int
  lastModifiedBy : String
  creationDateMs : Int
  tags : Json
  billingMode : Option String
  provisionedRcu : Option Int
  provisionedWcu : Option Int
  lsiSpecs : Json
  gsiSpecs : Json
deriving DecidableEq

def Json.asBool : Json → Option Bool
  | bool b => some b
  | _ => none

section Codecs

/-- `null` for what is absent. -/
def jsonOpt {α : Type} (f : α → Json) : Option α → Json
  | some a => f a
  | none => .null

def jsonTexts (l : List String) : Json := .arr (l.map Json.str)

def lsiSpecToJson (s : LsiRecord) : Json :=
  .obj [("index_name", .str s.indexName), ("name", .str s.name),
    ("projection_non_key_attrs", jsonOpt jsonTexts s.projectionNonKeyAttrs),
    ("projection_type", jsonOpt .str s.projectionType), ("serveable", .bool s.serveable),
    ("sort_attr", .str s.sortAttr), ("sort_pg_col", .str s.sortPgCol),
    ("sort_type", .str s.sortType.tag), ("unserveable_reason", jsonOpt .str s.unserveableReason)]

def lsiSpecsToJson (specs : List LsiRecord) : Json := .arr (specs.map lsiSpecToJson)

def gsiSpecToJson (s : GsiEntry) : Json :=
  .obj [("index_name", .str s.indexName), ("mode", .str s.mode.asStr), ("name", .str s.name),
    ("partition_attr", .str s.partitionAttr), ("partition_pg_col", .str s.partitionPgCol),
    ("partition_type", .str s.partitionType.tag),
    ("projection_non_key_attrs", jsonOpt jsonTexts s.projectionNonKeyAttrs),
    ("projection_type", jsonOpt .str s.projectionType), ("serveable", .bool s.serveable),
    ("sort_attr", jsonOpt .str s.sortAttr), ("sort_pg_col", jsonOpt .str s.sortPgCol),
    ("sort_type", jsonOpt (fun t => .str t.tag) s.sortType),
    ("unserveable_reason", jsonOpt .str s.unserveableReason)]

def gsiSpecsToJson (specs : List GsiEntry) : Json := .arr (specs.map gsiSpecToJson)

variable (table column : String) (idx : Nat) (v : Json)

def malformedSpec {α : Type} (what : String) : Except CatalogError α :=
  .error (.malformedRow table (column ++ "[" ++ toString idx ++ "]: " ++ what))

def readStr (key : String) : Except CatalogError String :=
  match (v.get key).bind Json.asStr with
  | some s => .ok s
  | none => malformedSpec table column idx ("missing or non-string `" ++ key ++ "`")

def parseStoredKeyType : String → Except CatalogError KeyType
  | "S" => .ok .s
  | "N" => .ok .n
  | "B" => .ok .b
  | other => .error (.malformedRow table ("unknown key type `" ++ other ++ "` (expected S | N | B)"))

/-- Absent also when of another type. -/
def optStr (key : String) : Option String := (v.get key).bind Json.asStr

def optTexts (key : String) : Option (List String) :=
  ((v.get key).bind Json.asArray).map fun items => items.filterMap Json.asStr

def optFlag (key : String) : Bool := ((v.get key).bind Json.asBool).getD false

def specObject : Except CatalogError Unit :=
  if v.asObject.isSome then .ok () else malformedSpec table column idx "expected object"

def lsiSpecFromJson : Except CatalogError LsiRecord := do
  specObject table "lsi_specs" idx v
  let name ← readStr table "lsi_specs" idx v "name"
  let sortAttr ← readStr table "lsi_specs" idx v "sort_attr"
  let sortTypeText ← readStr table "lsi_specs" idx v "sort_type"
  let sortType ← parseStoredKeyType table sortTypeText
  let sortPgCol ← readStr table "lsi_specs" idx v "sort_pg_col"
  let indexName ← readStr table "lsi_specs" idx v "index_name"
  return { name, sortAttr, sortType, sortPgCol, indexName
           projectionType := optStr v "projection_type"
           projectionNonKeyAttrs := optTexts v "projection_non_key_attrs"
           serveable := optFlag v "serveable"
           unserveableReason := optStr v "unserveable_reason" }

def sortTypeFromJson : Except CatalogError (Option KeyType) :=
  match v.get "sort_type" with
  | none | some .null => .ok none
  | some (.str s) => (parseStoredKeyType table s).map some
  | _ => malformedSpec table "gsi_specs" idx "`sort_type` must be string or null"

/-- Rows without a mode are from before there were two. -/
def modeFromJson : Except CatalogError GsiMode :=
  match v.get "mode" with
  | none | some .null => .ok .generated
  | some (.str s) => match GsiMode.parse s with
    | some mode => .ok mode
    | none => malformedSpec table "gsi_specs" idx
        ("`mode` must be `generated` or `dual_write`, got `" ++ s ++ "`")
  | _ => malformedSpec table "gsi_specs" idx "`mode` must be string"

def gsiSpecFromJson : Except CatalogError GsiEntry := do
  specObject table "gsi_specs" idx v
  let name ← readStr table "gsi_specs" idx v "name"
  let partitionAttr ← readStr table "gsi_specs" idx v "partition_attr"
  let partitionTypeText ← readStr table "gsi_specs" idx v "partition_type"
  let partitionType ← parseStoredKeyType table partitionTypeText
  let partitionPgCol ← readStr table "gsi_specs" idx v "partition_pg_col"
  let sortType ← sortTypeFromJson table idx v
  let indexName ← readStr table "gsi_specs" idx v "index_name"
  let mode ← modeFromJson table idx v
  return { name, partitionAttr, partitionType, partitionPgCol, sortType, indexName, mode
           sortAttr := optStr v "sort_attr"
           sortPgCol := optStr v "sort_pg_col"
           projectionType := optStr v "projection_type"
           projectionNonKeyAttrs := optTexts v "projection_non_key_attrs"
           serveable := optFlag v "serveable"
           unserveableReason := optStr v "unserveable_reason" }

def specsFromJson {α : Type} (fromJson : Nat → Json → Except CatalogError α) :
    Except CatalogError (List α) :=
  match v.asArray with
  | some items => items.zipIdx.mapM fun item => fromJson item.2 item.1
  | none => .error (.malformedRow table (column ++ " must be a JSON array"))

def lsiSpecsFromJson : Except CatalogError (List LsiRecord) :=
  specsFromJson table "lsi_specs" v (lsiSpecFromJson table)

def gsiSpecsFromJson : Except CatalogError (List GsiEntry) :=
  specsFromJson table "gsi_specs" v (gsiSpecFromJson table)

end Codecs

section RoundTrip

open Fallible

variable (table column : String) (idx : Nat)

theorem filterMap_asStr_map (l : List String) : (l.map Json.str).filterMap Json.asStr = l := by
  induction l with
  | nil => rfl
  | cons s l ih => simp [ih]

theorem parseStoredKeyType_tag (t : KeyType) : parseStoredKeyType table t.tag = .ok t := by
  cases t <;> rfl

theorem optStr_jsonOpt {v : Json} {o : Option String}
    (h : v.get key = some (jsonOpt .str o)) : optStr v key = o := by
  rw [optStr, h]
  cases o <;> rfl

theorem optTexts_jsonOpt {v : Json} {o : Option (List String)}
    (h : v.get key = some (jsonOpt jsonTexts o)) : optTexts v key = o := by
  rw [optTexts, h]
  cases o with
  | none => rfl
  | some l => exact congrArg some (filterMap_asStr_map l)

theorem readStr_str {v : Json} {s : String} (h : v.get key = some (.str s)) :
    readStr table column idx v key = .ok s := by
  rw [readStr, h]
  rfl

theorem optFlag_bool {v : Json} {b : Bool} (h : v.get key = some (.bool b)) :
    optFlag v key = b := by
  rw [optFlag, h]
  rfl

theorem lsiSpecFromJson_toJson (s : LsiRecord) :
    lsiSpecFromJson table idx (lsiSpecToJson s) = .ok s := by
  have hread : ∀ key text, (lsiSpecToJson s).get key = some (.str text) →
      readStr table "lsi_specs" idx (lsiSpecToJson s) key = .ok text :=
    fun _ _ h => readStr_str table "lsi_specs" idx h
  have hprojection : optStr (lsiSpecToJson s) "projection_type" = s.projectionType :=
    optStr_jsonOpt rfl
  have hreason : optStr (lsiSpecToJson s) "unserveable_reason" = s.unserveableReason :=
    optStr_jsonOpt rfl
  have hattrs : optTexts (lsiSpecToJson s) "projection_non_key_attrs" = s.projectionNonKeyAttrs :=
    optTexts_jsonOpt rfl
  have hflag : optFlag (lsiSpecToJson s) "serveable" = s.serveable := optFlag_bool rfl
  have hobject : specObject table "lsi_specs" idx (lsiSpecToJson s) = .ok () := rfl
  rw [lsiSpecFromJson, hobject, ok_bind, hread _ s.name rfl, ok_bind, hread _ s.sortAttr rfl,
    ok_bind, hread _ s.sortType.tag rfl, ok_bind, parseStoredKeyType_tag, ok_bind,
    hread _ s.sortPgCol rfl, ok_bind, hread _ s.indexName rfl, ok_bind, hprojection, hattrs, hflag,
    hreason]
  rfl

theorem sortTypeFromJson_toJson (s : GsiEntry) :
    sortTypeFromJson table idx (gsiSpecToJson s) = .ok s.sortType := by
  have hget : (gsiSpecToJson s).get "sort_type" =
      some (jsonOpt (fun t : KeyType => .str t.tag) s.sortType) := rfl
  rw [sortTypeFromJson, hget]
  cases s.sortType with
  | none => rfl
  | some t =>
    simp only [jsonOpt, parseStoredKeyType_tag]
    rfl

theorem modeFromJson_toJson (s : GsiEntry) :
    modeFromJson table idx (gsiSpecToJson s) = .ok s.mode := by
  have hget : (gsiSpecToJson s).get "mode" = some (.str s.mode.asStr) := rfl
  rw [modeFromJson, hget]
  cases s.mode <;> rfl

theorem gsiSpecFromJson_toJson (s : GsiEntry) :
    gsiSpecFromJson table idx (gsiSpecToJson s) = .ok s := by
  have hread : ∀ key text, (gsiSpecToJson s).get key = some (.str text) →
      readStr table "gsi_specs" idx (gsiSpecToJson s) key = .ok text :=
    fun _ _ h => readStr_str table "gsi_specs" idx h
  have hopt : ∀ key o, (gsiSpecToJson s).get key = some (jsonOpt .str o) →
      optStr (gsiSpecToJson s) key = o := fun _ _ => optStr_jsonOpt
  have hattrs : optTexts (gsiSpecToJson s) "projection_non_key_attrs" = s.projectionNonKeyAttrs :=
    optTexts_jsonOpt rfl
  have hflag : optFlag (gsiSpecToJson s) "serveable" = s.serveable := optFlag_bool rfl
  have hobject : specObject table "gsi_specs" idx (gsiSpecToJson s) = .ok () := rfl
  rw [gsiSpecFromJson, hobject, ok_bind, hread _ s.name rfl, ok_bind, hread _ s.partitionAttr rfl,
    ok_bind, hread _ s.partitionType.tag rfl, ok_bind, parseStoredKeyType_tag, ok_bind,
    hread _ s.partitionPgCol rfl, ok_bind, sortTypeFromJson_toJson, ok_bind,
    hread _ s.indexName rfl, ok_bind, modeFromJson_toJson, ok_bind, hopt _ s.sortAttr rfl,
    hopt _ s.sortPgCol rfl, hopt _ s.projectionType rfl, hattrs, hflag,
    hopt _ s.unserveableReason rfl]
  rfl

/-- What is written for each spec is read back, whatever its place. -/
theorem mapM_zipIdx_ok {α β : Type} {f : Nat → β → Except CatalogError α} {g : α → β}
    (h : ∀ idx a, f idx (g a) = .ok a) (l : List α) (start : Nat) :
    ((l.map g).zipIdx start).mapM (fun item => f item.2 item.1) = .ok l := by
  induction l generalizing start with
  | nil => rfl
  | cons a l ih =>
    rw [List.map_cons, List.zipIdx_cons, List.mapM_cons, h, ok_bind, ih, ok_bind]
    rfl

theorem lsiSpecsFromJson_toJson (specs : List LsiRecord) :
    lsiSpecsFromJson table (lsiSpecsToJson specs) = .ok specs :=
  mapM_zipIdx_ok (lsiSpecFromJson_toJson table) specs 0

theorem gsiSpecsFromJson_toJson (specs : List GsiEntry) :
    gsiSpecsFromJson table (gsiSpecsToJson specs) = .ok specs :=
  mapM_zipIdx_ok (gsiSpecFromJson_toJson table) specs 0

end RoundTrip

/-- A GSI's spec for translators, with the stored parts of the sort key. -/
structure GsiMirror where
  name : String
  partitionAttr : String
  partitionType : KeyType
  partitionPgCol : String
  sortAttr : Option String
  sortType : Option KeyType
  sortPgCol : Option String
  isDualWrite : Bool
  serveable : Bool
  unserveableReason : Option String
deriving DecidableEq

/-- What translators read of an entry. -/
structure CatalogSchema where
  name : String
  pgTable : String
  pkAttr : String
  pkType : KeyType
  skAttr : Option String
  skType : Option KeyType
  jsonbCol : String
  lsis : OrderedMap String LsiSchema
  gsis : OrderedMap String GsiMirror

structure TableRecord where
  schema : CatalogSchema
  status : TableStatus
  serveable : Bool
  unserveableReason : Option String
  creationDateMs : Int
  lastModifiedAtMs : Int
  lastModifiedBy : String
  billingMode : Option String
  provisionedRcu : Option Int
  provisionedWcu : Option Int
  tags : Json
  gsis : OrderedMap String GsiEntry
  lsis : List LsiRecord

def LsiRecord.mirror (s : LsiRecord) : LsiSchema :=
  ⟨s.name, s.sortAttr, s.sortType, s.sortPgCol, s.serveable, s.unserveableReason⟩

def GsiEntry.mirror (s : GsiEntry) : GsiMirror :=
  ⟨s.name, s.partitionAttr, s.partitionType, s.partitionPgCol, s.sortAttr, s.sortType, s.sortPgCol,
    s.mode = .dualWrite, s.serveable, s.unserveableReason⟩

/-- Specs by name; of several with one name the last. -/
def lsiMirrors (specs : List LsiRecord) : OrderedMap String LsiSchema :=
  .ofList (specs.map fun s => (s.name, s.mirror))

def gsisByName (specs : List GsiEntry) : OrderedMap String GsiEntry :=
  .ofList (specs.map fun s => (s.name, s))

namespace MetadataRow

variable (row : MetadataRow)

def parsedStatus : Except CatalogError TableStatus :=
  match TableStatus.parse row.status with
  | some status => .ok status
  | none => .error (.malformedRow row.tableName ("unknown status `" ++ row.status ++ "`"))

def parsedSkType : Except CatalogError (Option KeyType) :=
  match row.skType with
  | some s => (parseStoredKeyType row.tableName s).map some
  | none => .ok none

def checkSortKey (skType : Option KeyType) : Except CatalogError Unit :=
  if row.skAttr.isSome ≠ skType.isSome then
    .error (.malformedRow row.tableName "sk_attr and sk_type must be both-present or both-absent")
  else .ok ()

def entry (status : TableStatus) (pkType : KeyType) (skType : Option KeyType)
    (lsis : List LsiRecord) (gsis : List GsiEntry) : TableRecord where
  schema :=
    { name := row.tableName
      pgTable := row.pgTable
      pkAttr := row.pkAttr
      pkType := pkType
      skAttr := row.skAttr
      skType := skType
      jsonbCol := row.jsonbCol
      lsis := lsiMirrors lsis
      gsis := .ofList (gsis.map fun s => (s.name, s.mirror)) }
  status := status
  serveable := row.serveable
  unserveableReason := row.unserveableReason
  creationDateMs := row.creationDateMs
  lastModifiedAtMs := row.lastModifiedAtMs
  lastModifiedBy := row.lastModifiedBy
  billingMode := row.billingMode
  provisionedRcu := row.provisionedRcu
  provisionedWcu := row.provisionedWcu
  tags := row.tags
  gsis := gsisByName gsis
  lsis := lsis

def rowToEntry : Except CatalogError TableRecord := do
  let status ← row.parsedStatus
  let pkType ← parseStoredKeyType row.tableName row.pkType
  let skType ← row.parsedSkType
  row.checkSortKey skType
  let lsis ← lsiSpecsFromJson row.tableName row.lsiSpecs
  let gsis ← gsiSpecsFromJson row.tableName row.gsiSpecs
  return row.entry status pkType skType lsis gsis

structure ReadsAs (status : TableStatus) (pkType : KeyType) (skType : Option KeyType)
    (lsis : List LsiRecord) (gsis : List GsiEntry) : Prop where
  statusText : row.parsedStatus = .ok status
  pkTypeText : parseStoredKeyType row.tableName row.pkType = .ok pkType
  skTypeText : row.parsedSkType = .ok skType
  sortKey : row.checkSortKey skType = .ok ()
  lsiSpecs : lsiSpecsFromJson row.tableName row.lsiSpecs = .ok lsis
  gsiSpecs : gsiSpecsFromJson row.tableName row.gsiSpecs = .ok gsis

theorem rowToEntry_ok_iff {e : TableRecord} : row.rowToEntry = .ok e ↔
    ∃ status pkType skType lsis gsis, row.ReadsAs status pkType skType lsis gsis ∧
      e = row.entry status pkType skType lsis gsis := by
  simp only [rowToEntry, Fallible.bind_ok_iff]
  constructor
  · rintro ⟨status, hstatus, pkType, hpk, skType, hsk, _, hsort, lsis, hlsis, gsis, hgsis, h⟩
    exact ⟨status, pkType, skType, lsis, gsis, ⟨hstatus, hpk, hsk, hsort, hlsis, hgsis⟩,
      (Except.ok.inj h).symm⟩
  · rintro ⟨status, pkType, skType, lsis, gsis, h, rfl⟩
    exact ⟨status, h.statusText, pkType, h.pkTypeText, skType, h.skTypeText, (), h.sortKey, lsis,
      h.lsiSpecs, gsis, h.gsiSpecs, rfl⟩

end MetadataRow

end Rektifier
