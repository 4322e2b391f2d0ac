import Rektifier.UpdateTable

namespace Rektifier

variable {g : GsiSpec}

def ColumnType.dataType : ColumnType → String
  | .text => "text"
  | .numeric => "numeric"
  | .bytea => "bytea"
  | .jsonb => "jsonb"

/-- `is_generated` of `information_schema.columns`. -/
def ColumnInfo.generation (info : ColumnInfo) : String :=
  if info.isGenerated then "ALWAYS" else "NEVER"

/-- `data_type` and `is_generated` by column name. -/
abbrev ColumnView := String → Option (String × String)

/-- What `information_schema.columns` shows. -/
def Columns.view (columns : Columns) : ColumnView := fun col =>
  (columns col).map fun info => (info.dataType.dataType, info.generation)

/-- The reason a column does not serve, if any. -/
def checkColumnWithMode (columns : ColumnView) (col : String) (keyType : KeyType)
    (mustBeGenerated : Bool) : Option String :=
  match columns col with
  | none => some ("column `" ++ col ++ "`: missing")
  | some (dataType, isGenerated) =>
    if dataType ≠ keyType.columnType.dataType then
      some ("column `" ++ col ++ "`: expected `" ++ keyType.columnType.dataType ++ "`, got `"
        ++ dataType ++ "`")
    else if mustBeGenerated ∧ isGenerated ≠ "ALWAYS" then
      some ("column `" ++ col ++ "`: must be GENERATED ALWAYS AS (...) STORED (is_generated = "
        ++ isGenerated ++ ")")
    else if ¬ mustBeGenerated ∧ isGenerated = "ALWAYS" then
      some ("column `" ++ col ++ "`: must be a regular (non-GENERATED) column for "
        ++ "DualWrite-mode GSI (is_generated = ALWAYS)")
    else none

def checkKeyColumn (columns : ColumnView) (col : String) (keyType : KeyType) : Option String :=
  checkColumnWithMode columns col keyType true

def checkGsiColumn (columns : ColumnView) (col : String) (keyType : KeyType) (mode : GsiMode) :
    Option String :=
  checkColumnWithMode columns col keyType (mode = .generated)

/-- A missing column gives no reason. -/
def checkJsonbColumn (columns : ColumnView) (jsonbCol : String) : Option String :=
  match columns jsonbCol with
  | none => none
  | some (dataType, isGenerated) =>
    if dataType ≠ "jsonb" then
      some ("column `" ++ jsonbCol ++ "`: expected jsonb, got `" ++ dataType ++ "`")
    else if isGenerated = "ALWAYS" then
      some ("column `" ++ jsonbCol ++ "`: jsonb column must not be GENERATED ALWAYS")
    else none

/-- The first reason that degrades all indexes. -/
def checkBase (columns : ColumnView) (jsonbCol pkAttr : String) (pkType : KeyType)
    (sk : Option (String × KeyType)) (primaryKey : List String) : Option String :=
  let expected := pkAttr :: (sk.map Prod.fst).toList
  (checkJsonbColumn columns jsonbCol).or <|
  (checkKeyColumn columns pkAttr pkType).or <|
  (sk.bind fun sk => checkKeyColumn columns sk.1 sk.2).or <|
  if primaryKey ≠ expected then
    some ("primary key shape mismatch: expected " ++ debugNames expected ++ ", got "
      ++ debugNames primaryKey)
  else none

def baseReason (e : TableEntry) (columns : Columns) (primaryKey : List String) : Option String :=
  checkBase columns.view "data" e.pkAttr e.pkType e.sk primaryKey

/-- The column list `check_gsi` looks for. -/
def GsiSpec.expectedColumns (g : GsiSpec) : String :=
  match g.sort with
  | some s => "(" ++ g.partitionPgCol ++ ", " ++ s.col ++ ")"
  | none => "(" ++ g.partitionPgCol ++ ")"

def textContains (hay needle : String) : Bool := decide (needle.toList <:+: hay.toList)

/-- The reason an index does not serve once its columns do; `indexDefs` is `pg_indexes` of its
table. -/
def checkIndex (indexDefs : String → Option String) (kind name indexName expected : String) :
    Option String :=
  match indexDefs indexName with
  | none => some (kind ++ " `" ++ name ++ "` index `" ++ indexName ++ "` missing from pg_indexes")
  | some indexDef =>
    if textContains indexDef expected then none
    else some (kind ++ " `" ++ name ++ "` index columns mismatch: expected `" ++ expected
      ++ "` in indexdef, got: " ++ indexDef)

def checkLsi (columns : ColumnView) (indexDefs : String → Option String)
    (pkAttr name sortPgCol indexName : String) (sortType : KeyType) : Option String :=
  match checkKeyColumn columns sortPgCol sortType with
  | some reason => some ("LSI `" ++ name ++ "` column: " ++ reason)
  | none => checkIndex indexDefs "LSI" name indexName ("(" ++ pkAttr ++ ", " ++ sortPgCol ++ ")")

def checkGsi (columns : ColumnView) (indexDefs : String → Option String) (g : GsiSpec) :
    Option String :=
  match checkGsiColumn columns g.partitionPgCol g.partitionType g.mode with
  | some reason => some ("GSI `" ++ g.name ++ "` partition column: " ++ reason)
  | none =>
    match g.sort.bind fun s => checkGsiColumn columns s.col s.keyType g.mode with
    | some reason => some ("GSI `" ++ g.name ++ "` sort column: " ++ reason)
    | none => checkIndex indexDefs "GSI" g.name g.indexName g.expectedColumns

def gsiReason (g : GsiSpec) (columns : Columns) (indexDefs : String → Option String) :
    Option String :=
  checkGsi columns.view indexDefs g

inductive TableStatus where
  | creating | failedCreating | active | degraded | updating | failedUpdating | deleting
  | failedDeleting
deriving DecidableEq

structure Verdict (Lsis Gsis : Type) where
  status : TableStatus
  serveable : Bool
  reason : Option String
  lsis : Lsis
  gsis : Gsis
deriving DecidableEq

/-- The reason the table does not serve, and the one its indexes then get; a table without columns
does not exist. -/
def tableReason (there : Bool) (pgTable : String) (base : Option String) :
    Option (String × String) :=
  if there then base.map fun reason => (reason, reason)
  else some ("PG table `" ++ pgTable ++ "` does not exist", "parent PG table does not exist")

/-- Its table's reason, or else its own. -/
def indexReason (table : Option (String × String)) (own : Option String) : Option String :=
  match table with
  | some (_, reason) => some reason
  | none => own

/-- The verdict on one table, from what the queries showed. The two functions put each index's
reason into the caller's record of it. -/
def introspect {Lsis Gsis : Type} (table : Option (String × String))
    (lsis : (Option String → Option String) → Lsis)
    (gsis : (Option String → Option String) → Gsis) :
    Verdict Lsis Gsis where
  status := if table.isSome then .degraded else .active
  serveable := table.isNone
  reason := table.map Prod.fst
  lsis := lsis (indexReason table)
  gsis := gsis (indexReason table)

def GsiSpec.judged (g : GsiSpec) (reason : Option String) : GsiSpec :=
  { g with serveable := reason.isNone, unserveableReason := reason }

/-- The verdict on one GSI. -/
def reconcileGsi (s : TableState) (primaryKey : List String) (indexDefs : String → Option String)
    (g : GsiSpec) : GsiSpec :=
  g.judged (indexReason (tableReason true s.entry.pgTable (baseReason s.entry s.columns primaryKey))
    (gsiReason g s.columns indexDefs))

theorem reconcileGsi_keeps (s : TableState) (primaryKey : List String)
    (indexDefs : String → Option String) (g : GsiSpec) :
    (reconcileGsi s primaryKey indexDefs g).mode = g.mode ∧
      (reconcileGsi s primaryKey indexDefs g).columns = g.columns := ⟨rfl, rfl⟩

theorem dataType_injective : Function.Injective ColumnType.dataType := by
  intro a b h
  cases a <;> cases b <;> first | rfl | exact absurd h (by decide)

section Checks

variable {columns : ColumnView} {indexDefs : String → Option String}

theorem checkColumnWithMode_none_iff {col : String} {keyType : KeyType} {mustBeGenerated : Bool} :
    checkColumnWithMode columns col keyType mustBeGenerated = none ↔
      ∃ info, columns col = some info ∧ info.1 = keyType.columnType.dataType ∧
        (info.2 = "ALWAYS" ↔ mustBeGenerated) := by
  unfold checkColumnWithMode
  rcases columns col with _ | ⟨dataType, isGenerated⟩
  · simp
  · by_cases htype : dataType = keyType.columnType.dataType
    · cases mustBeGenerated <;> simp [htype]
    · simp [htype]

theorem checkIndex_none_iff {kind name indexName expected : String} :
    checkIndex indexDefs kind name indexName expected = none ↔
      ∃ indexDef, indexDefs indexName = some indexDef ∧ textContains indexDef expected := by
  unfold checkIndex
  rcases indexDefs indexName with _ | indexDef
  · simp
  · by_cases hcontains : textContains indexDef expected = true <;> simp [hcontains]

theorem checkLsi_none_iff {pkAttr name sortPgCol indexName : String} {sortType : KeyType} :
    checkLsi columns indexDefs pkAttr name sortPgCol indexName sortType = none ↔
      checkKeyColumn columns sortPgCol sortType = none ∧
      ∃ indexDef, indexDefs indexName = some indexDef ∧
        textContains indexDef ("(" ++ pkAttr ++ ", " ++ sortPgCol ++ ")") := by
  rw [← @checkIndex_none_iff indexDefs "LSI" name, checkLsi]
  cases checkKeyColumn columns sortPgCol sortType <;> simp

theorem checkGsi_none_iff : checkGsi columns indexDefs g = none ↔
    (∀ c ∈ g.cols, checkGsiColumn columns c.col c.keyType g.mode = none) ∧
      ∃ indexDef, indexDefs g.indexName = some indexDef ∧
        textContains indexDef g.expectedColumns := by
  have hcols : (∀ c ∈ g.cols, checkGsiColumn columns c.col c.keyType g.mode = none) ↔
      checkGsiColumn columns g.partitionPgCol g.partitionType g.mode = none ∧
      (g.sort.bind fun s => checkGsiColumn columns s.col s.keyType g.mode) = none := by
    simp only [GsiSpec.cols, List.forall_mem_cons, Option.bind_eq_none_iff, Option.mem_toList]
  rw [hcols, ← @checkIndex_none_iff indexDefs "GSI" g.name, checkGsi]
  cases checkGsiColumn columns g.partitionPgCol g.partitionType g.mode with
  | some _ => simp
  | none => cases g.sort.bind fun s => checkGsiColumn columns s.col s.keyType g.mode <;> simp

end Checks

/-- A column serves exactly when it has the key's type and is generated as asked. -/
theorem checkColumnWithMode_view {columns : Columns} {col : String} {keyType : KeyType}
    {mustBeGenerated : Bool} :
    checkColumnWithMode columns.view col keyType mustBeGenerated = none ↔
      columns col = some ⟨keyType.columnType, mustBeGenerated⟩ := by
  rw [checkColumnWithMode_none_iff, Columns.view]
  rcases columns col with _ | ⟨dataType, generated⟩
  · simp
  · cases generated <;> cases mustBeGenerated <;>
      simp [ColumnInfo.generation, dataType_injective.eq_iff]

theorem gsiReason_dualWrite {columns : Columns} {indexDefs : String → Option String}
    (hmode : g.mode = .dualWrite) :
    gsiReason g columns indexDefs = none ↔
      (∀ c ∈ g.cols, columns c.col = some ⟨c.keyType.columnType, false⟩) ∧
      ∃ indexDef, indexDefs g.indexName = some indexDef ∧
        textContains indexDef g.expectedColumns := by
  rw [gsiReason, checkGsi_none_iff, hmode]
  simp only [checkGsiColumn, checkColumnWithMode_view]
  rfl

theorem reconcileGsi_serveable {s : TableState} {primaryKey : List String}
    {indexDefs : String → Option String} (hmode : g.mode = .dualWrite) :
    (reconcileGsi s primaryKey indexDefs g).serveable ↔
      baseReason s.entry s.columns primaryKey = none ∧
      (∀ c ∈ g.cols, s.columns c.col = some ⟨c.keyType.columnType, false⟩) ∧
      ∃ indexDef, indexDefs g.indexName = some indexDef ∧
        textContains indexDef g.expectedColumns := by
  rw [← gsiReason_dualWrite hmode, reconcileGsi, GsiSpec.judged]
  rcases baseReason s.entry s.columns primaryKey with _ | reason
  · simp [tableReason, indexReason]
  · simp [tableReason, indexReason]

end Rektifier
