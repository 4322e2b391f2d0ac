import Rektifier.PathLiteral
import Rektifier.SqlIdent
import Rektifier.UpdateTable

namespace Rektifier

variable {attr col : String} {g : String → String}

/-- The words that name no column without quotes. -/
def reservedKeywords : List String :=
  ["all", "analyse", "analyze", "and", "any", "array", "as", "asc", "asymmetric", "authorization",
    "binary", "both", "case", "cast", "check", "collate", "collation", "column", "concurrently",
    "constraint", "create", "cross", "current_catalog", "current_date", "current_role",
    "current_schema", "current_time", "current_timestamp", "current_user", "default", "deferrable",
    "desc", "distinct", "do", "else", "end", "except", "false", "fetch", "for", "foreign", "freeze",
    "from", "full", "grant", "group", "having", "ilike", "in", "initially", "inner", "intersect",
    "into", "is", "isnull", "join", "lateral", "leading", "left", "like", "limit", "localtime",
    "localtimestamp", "natural", "not", "notnull", "null", "offset", "on", "only", "or", "order",
    "outer", "overlaps", "placing", "primary", "references", "returning", "right", "select",
    "session_user", "similar", "some", "symmetric", "system_user", "table", "tablesample", "then",
    "to", "trailing", "true", "union", "unique", "user", "using", "variadic", "verbose", "when",
    "where", "window", "with"]

def systemColumns : List String := ["tableoid", "xmin", "cmin", "xmax", "cmax", "ctid"]

def refusedColumn (cs : List Char) : Bool := String.ofList cs ∈ reservedKeywords ++ systemColumns

/-- The names as PostgreSQL reads them; a text of more than one identifier is refused, or names
other columns, each a part of it. -/
def pgNames (printed : String → String) (schema : String) : PgNames where
  unquoted name := (SqlIdent.unquoted refusedColumn pgIdentMax name.toList).map String.ofList
  folded := by
    intro name col h
    obtain ⟨v, hv, rfl⟩ := Option.map_eq_some_iff.mp h
    rw [String.toList_ofList, SqlIdent.unquoted_idem (by decide) hv]
    rfl
  printed := printed
  schema := schema

def quotedColumn (text : String) : Option String :=
  (SqlIdent.quoted pgIdentMax text.toList).map String.ofList

/-- In lower case, of at most 63 bytes, and not reserved. -/
def plainColumn (attr : String) : Bool :=
  let cs := attr.toList
  SqlIdent.isIdent cs && SqlIdent.fold cs = cs && SqlIdent.byteSize cs ≤ pgIdentMax
    && !refusedColumn cs

/-- The column of the DDL text is there, and is the one the data plane quotes and the reconciler
looks up. -/
def KeyColumn (names : PgNames) (columns : Columns) (attr : String) : Prop :=
  ∃ col, names.unquoted attr = some col ∧ (columns col).isSome = true ∧
    quotedColumn (quoteIdent attr) = some col ∧ attr = col

section

variable {printed : String → String} {schema : String}
variable {names : PgNames} {c : String × KeyType} {columns columns' : Columns}
  {plan : CreateTablePlan}

theorem unquoted_self_iff (attr : String) :
    (pgNames printed schema).unquoted attr = some attr ↔ plainColumn attr := by
  have hself : (pgNames printed schema).unquoted attr = some attr ↔
      SqlIdent.unquoted refusedColumn pgIdentMax attr.toList = some attr.toList := by
    constructor
    · intro h
      obtain ⟨v, hv, hattr⟩ := Option.map_eq_some_iff.mp h
      rw [hv, ← hattr, String.toList_ofList]
    · intro h
      exact (congrArg (Option.map String.ofList) h).trans (by rw [Option.map_some, String.ofList_toList])
  rw [hself, SqlIdent.unquoted_eq_self_iff]
  simp only [plainColumn, Bool.and_eq_true, decide_eq_true_eq, Bool.not_eq_true', and_assoc]

theorem plainColumn_spec (h : plainColumn attr) :
    attr.toList ≠ [] ∧ '\x00' ∉ attr.toList ∧ SqlIdent.byteSize attr.toList ≤ pgIdentMax := by
  simp only [plainColumn, Bool.and_eq_true, decide_eq_true_eq, Bool.not_eq_true', and_assoc] at h
  obtain ⟨hident, _, hsize, _⟩ := h
  refine ⟨?_, ?_, hsize⟩
  · intro hnil
    rw [hnil] at hident
    cases hident
  · intro hzero
    have hpart := SqlIdent.isPart_of_isIdent hident _ hzero
    exact absurd hpart (by decide)

theorem quotedColumn_plain (h : plainColumn attr) :
    quotedColumn (quoteIdent attr) = some attr := by
  obtain ⟨hne, hzero, hsize⟩ := plainColumn_spec h
  have htext : (quoteIdent attr).toList = '"' :: (SqlLiteral.double '"' attr.toList ++ ['"']) := by
    simp [quoteIdent]
  rw [quotedColumn, htext, SqlIdent.quoted_double hne hzero, SqlIdent.clip_of_le hsize,
    Option.map_some, String.ofList_toList]

theorem keyColumn_iff {columns : Columns} :
    KeyColumn (pgNames printed schema) columns attr ↔
      plainColumn attr ∧ (columns attr).isSome := by
  constructor
  · rintro ⟨col, hname, hthere, _, rfl⟩
    exact ⟨(unquoted_self_iff attr).mp hname, hthere⟩
  · rintro ⟨hplain, hthere⟩
    exact ⟨attr, (unquoted_self_iff attr).mpr hplain, hthere, quotedColumn_plain hplain, rfl⟩

def createColumn (names : PgNames) (columns : Columns) (c : String × KeyType) : Option Columns := do
  let name ← names.unquoted c.1
  if (columns name).isSome then none
  else some (Function.update columns name (some ⟨c.2.columnType, true⟩))

theorem createColumns_eq (names : PgNames) (plan : CreateTablePlan) : createColumns names plan =
    (emittedCols plan).foldlM (createColumn names)
      (Function.update (fun _ => none) "data" (some ⟨.jsonb, false⟩)) := rfl

theorem createColumn_some (hname : names.unquoted c.1 = some col) :
    createColumn names columns c = some columns' ↔ columns col = none ∧
      columns' = Function.update columns col (some ⟨c.2.columnType, true⟩) := by
  rw [createColumn, hname, Option.bind_eq_bind, Option.bind_some]
  cases hold : columns col <;> simp [eq_comm]

theorem createColumn_self
    (hself : names.unquoted c.1 = some c.1) : createColumn names columns c = some columns' ↔
      columns c.1 = none ∧
        columns' = Function.update columns c.1 (some ⟨c.2.columnType, true⟩) :=
  createColumn_some hself

theorem createColumn_foldlM_ok
    {cs : List (String × KeyType)} {columns : Columns}
    (hname : ∀ c ∈ cs, names.unquoted c.1 = some (g c.1))
    (hnodup : (cs.map fun c => g c.1).Nodup) (hnew : ∀ c ∈ cs, columns (g c.1) = none) :
    ∃ columns', cs.foldlM (createColumn names) columns = some columns' ∧
      (∀ col, (∀ c ∈ cs, g c.1 ≠ col) → columns' col = columns col) ∧
      ∀ c ∈ cs, columns' (g c.1) = some ⟨c.2.columnType, true⟩ := by
  induction cs generalizing columns with
  | nil => exact ⟨columns, rfl, fun _ _ => rfl, nofun⟩
  | cons c cs ih =>
    obtain ⟨hc, hcs⟩ := List.forall_mem_cons.mp hname
    obtain ⟨hfree, hrest⟩ := List.forall_mem_cons.mp hnew
    obtain ⟨hfirst, hlater⟩ := List.nodup_cons.mp hnodup
    have hstep := (createColumn_some hc).mpr ⟨hfree, rfl⟩
    have hfresh : ∀ d ∈ cs,
        Function.update columns (g c.1) (some ⟨c.2.columnType, true⟩) (g d.1) = none := by
      intro d hd
      have hne : g d.1 ≠ g c.1 := fun h => hfirst (List.mem_map.mpr ⟨d, hd, h⟩)
      rw [Function.update_of_ne hne]
      exact hrest d hd
    obtain ⟨columns', hfold, hkept, hthere⟩ := ih hcs hlater hfresh
    refine ⟨columns', ?_, ?_, ?_⟩
    · rw [List.foldlM_cons, hstep]
      exact hfold
    · intro col hcol
      obtain ⟨hne, hothers⟩ := List.forall_mem_cons.mp hcol
      rw [hkept col hothers, Function.update_of_ne hne.symm]
    · refine List.forall_mem_cons.mpr ⟨?_, hthere⟩
      have hothers : ∀ d ∈ cs, g d.1 ≠ g c.1 := fun d hd heq =>
        hfirst (List.mem_map.mpr ⟨d, hd, heq⟩)
      rw [hkept _ hothers, Function.update_self]

theorem createColumn_foldlM_new {cs : List (String × KeyType)}
    (hname : ∀ c ∈ cs, names.unquoted c.1 = some (g c.1))
    (h : cs.foldlM (createColumn names) columns = some columns') :
    (cs.map fun c => g c.1).Nodup ∧ ∀ c ∈ cs, columns (g c.1) = none := by
  induction cs generalizing columns with
  | nil => exact ⟨List.nodup_nil, nofun⟩
  | cons c cs ih =>
    obtain ⟨hc, hcs⟩ := List.forall_mem_cons.mp hname
    rw [List.foldlM_cons] at h
    obtain ⟨next, hstep, h⟩ := Option.bind_eq_some_iff.mp h
    obtain ⟨hfree, rfl⟩ := (createColumn_some hc).mp hstep
    obtain ⟨hnodup, hnew⟩ := ih hcs h
    have hother : ∀ d ∈ cs, g d.1 ≠ g c.1 := by
      intro d hd heq
      have hnone := hnew d hd
      rw [heq, Function.update_self] at hnone
      cases hnone
    refine ⟨List.nodup_cons.mpr ⟨?_, hnodup⟩, List.forall_mem_cons.mpr ⟨hfree, ?_⟩⟩
    · intro hmem
      obtain ⟨d, hd, heq⟩ := List.mem_map.mp hmem
      exact hother d hd heq
    · intro d hd
      have hnone := hnew d hd
      rwa [Function.update_of_ne (hother d hd)] at hnone

/-- CREATE TABLE of columns whose names are read as `g` says. -/
theorem createColumns_named
    (hname : ∀ c ∈ emittedCols plan, names.unquoted c.1 = some (g c.1)) :
    (createColumns names plan).isSome ↔
      ("data" :: (emittedCols plan).map fun c => g c.1).Nodup := by
  have hstart : ∀ col, (Function.update (fun _ => none) "data"
      (some (⟨.jsonb, false⟩ : ColumnInfo)) : Columns) col = none ↔ col ≠ "data" := by
    intro col
    by_cases heq : col = "data" <;> simp [heq]
  rw [createColumns_eq, List.nodup_cons, Option.isSome_iff_exists]
  constructor
  · rintro ⟨columns, h⟩
    obtain ⟨hnodup, hnew⟩ := createColumn_foldlM_new hname h
    refine ⟨?_, hnodup⟩
    intro hmem
    obtain ⟨c, hc, heq⟩ := List.mem_map.mp hmem
    exact (hstart _).mp (hnew c hc) heq
  · rintro ⟨hdata, hnodup⟩
    obtain ⟨columns, h, _⟩ := createColumn_foldlM_ok hname hnodup fun c hc =>
      (hstart _).mpr fun heq => hdata (List.mem_map.mpr ⟨c, hc, heq⟩)
    exact ⟨columns, h⟩

theorem foldl_emit_nodup (indexed acc : List (String × KeyType)) :
    ((indexed.foldl (fun acc c => if c.1 ∈ acc.map Prod.fst then acc else acc ++ [c]) acc).map
      Prod.fst).Nodup ↔ (acc.map Prod.fst).Nodup := by
  induction indexed generalizing acc with
  | nil => exact .rfl
  | cons c indexed ih =>
    rw [List.foldl_cons, ih]
    by_cases hc : c.1 ∈ acc.map Prod.fst
    · rw [if_pos hc]
    · rw [if_neg hc, List.map_append, List.map_singleton, List.nodup_append]
      simp only [List.nodup_singleton, true_and, List.mem_singleton, forall_eq]
      exact ⟨And.left, fun h => ⟨h, fun a ha heq => hc (heq ▸ ha)⟩⟩

theorem mem_foldl_emit (indexed acc : List (String × KeyType)) :
    col ∈ (indexed.foldl (fun acc c => if c.1 ∈ acc.map Prod.fst then acc else acc ++ [c])
      acc).map Prod.fst ↔ col ∈ acc.map Prod.fst ∨ col ∈ indexed.map Prod.fst := by
  induction indexed generalizing acc with
  | nil => simp
  | cons c indexed ih =>
    rw [List.foldl_cons, ih, List.map_cons, List.mem_cons]
    split
    next hmem =>
      refine ⟨fun h => h.imp id .inr, ?_⟩
      rintro (h | rfl | h)
      · exact .inl h
      · exact .inl hmem
      · exact .inr h
    next => simp [or_assoc]

theorem mem_emittedCols :
    col ∈ (emittedCols plan).map Prod.fst ↔
      col ∈ plan.pkAttr :: (plan.sk.map Prod.fst).toList ∨
      col ∈ plan.lsis.map (fun l => l.2.1) ∨
      ∃ g ∈ plan.gsis, col ∈ g.partition.1 :: (g.sort.map Prod.fst).toList := by
  unfold emittedCols
  rw [mem_foldl_emit]
  refine or_congr ?_ ?_
  · cases plan.sk <;> simp
  · simp only [List.map_append, List.mem_append, List.map_map, List.map_flatMap, List.mem_flatMap]
    refine or_congr Iff.rfl (exists_congr fun g => and_congr Iff.rfl ?_)
    cases g.sort <;> simp

def CreateTablePlan.Key (plan : CreateTablePlan) (c : String × KeyType) : Prop :=
  c ∈ (plan.pkAttr, plan.pkType) :: plan.sk.toList ∨ c ∈ plan.lsis.map Prod.snd ∨
    ∃ g ∈ plan.gsis, c ∈ g.partition :: g.sort.toList

theorem CreateTablePlan.Key.emitted
    (h : plan.Key c) : c.1 ∈ (emittedCols plan).map Prod.fst := by
  rw [mem_emittedCols]
  rcases h with h | h | ⟨g, hg, h⟩
  · refine .inl ?_
    rcases List.mem_cons.mp h with rfl | h
    · exact List.mem_cons_self
    · rw [Option.mem_toList.mp h]
      exact List.mem_cons_of_mem _ List.mem_cons_self
  · obtain ⟨l, hl, rfl⟩ := List.mem_map.mp h
    exact .inr (.inl (List.mem_map.mpr ⟨l, hl, rfl⟩))
  · refine .inr (.inr ⟨g, hg, ?_⟩)
    rcases List.mem_cons.mp h with rfl | h
    · exact List.mem_cons_self
    · rw [Option.mem_toList.mp h]
      exact List.mem_cons_of_mem _ List.mem_cons_self

theorem of_mem_foldl_emit (indexed acc : List (String × KeyType))
    (h : c ∈ indexed.foldl (fun acc c => if c.1 ∈ acc.map Prod.fst then acc else acc ++ [c]) acc) :
    c ∈ acc ∨ c ∈ indexed := by
  induction indexed generalizing acc with
  | nil => exact .inl h
  | cons d indexed ih =>
    rw [List.foldl_cons] at h
    rcases ih _ h with h | h
    · split at h
      next => exact .inl h
      next =>
        rcases List.mem_append.mp h with h | h
        · exact .inl h
        · exact .inr (List.mem_singleton.mp h ▸ List.mem_cons_self)
    · exact .inr (List.mem_cons_of_mem _ h)

theorem key_of_mem_emittedCols (h : c ∈ emittedCols plan) : plan.Key c := by
  rcases of_mem_foldl_emit _ _ h with h | h
  · exact .inl h
  · rw [List.mem_append, List.mem_flatMap] at h
    exact .inr h

theorem emittedCols_nodup_iff (plan : CreateTablePlan) :
    ((emittedCols plan).map Prod.fst).Nodup ↔ ∀ s, plan.sk = some s → s.1 ≠ plan.pkAttr := by
  rw [emittedCols, foldl_emit_nodup]
  cases plan.sk with
  | none => simp
  | some s => simp [eq_comm]

theorem createColumns_iff (plan : CreateTablePlan) :
    (∃ columns, createColumns (pgNames printed schema) plan = some columns ∧
      ∀ c ∈ emittedCols plan, KeyColumn (pgNames printed schema) columns c.1) ↔
    (∀ c ∈ emittedCols plan, plainColumn c.1 ∧ c.1 ≠ "data") ∧
      ∀ s, plan.sk = some s → s.1 ≠ plan.pkAttr := by
  rw [← emittedCols_nodup_iff, createColumns_eq]
  constructor
  · rintro ⟨columns, hcreate, hkeys⟩
    have hplain : ∀ c ∈ emittedCols plan, plainColumn c.1 :=
      fun c hc => (keyColumn_iff.mp (hkeys c hc)).1
    obtain ⟨hnodup, hnew⟩ := createColumn_foldlM_new (g := id)
      (fun c hc => (unquoted_self_iff c.1).mpr (hplain c hc)) hcreate
    refine ⟨fun c hc => ⟨hplain c hc, ?_⟩, hnodup⟩
    intro hdata
    have hnone := hnew c hc
    rw [id, hdata, Function.update_self] at hnone
    cases hnone
  · rintro ⟨hplain, hnodup⟩
    have hnew : ∀ c ∈ emittedCols plan, Function.update (fun _ => none) "data"
        (some (⟨.jsonb, false⟩ : ColumnInfo)) c.1 = none :=
      fun c hc => Function.update_of_ne (hplain c hc).2 _ _
    obtain ⟨columns, hcreate, _, hthere⟩ := createColumn_foldlM_ok (g := id)
      (fun c hc => (unquoted_self_iff c.1).mpr (hplain c hc).1) hnodup hnew
    refine ⟨columns, hcreate, fun c hc => keyColumn_iff.mpr ⟨(hplain c hc).1, ?_⟩⟩
    exact Option.isSome_of_eq_some (hthere c hc)

theorem addColumn_self {c : DualWriteCol}
    (hself : names.unquoted c.col = some c.col) (h : addColumn names columns c = some columns') :
    (columns' c.col).isSome ∧
      ∀ col, (columns col).isSome → (columns' col).isSome := by
  rw [addColumn, hself, Option.bind_eq_bind, Option.bind_some] at h
  split at h
  next hthere =>
    cases h
    exact ⟨hthere, fun _ h => h⟩
  next =>
    cases h
    refine ⟨by rw [Function.update_self]; rfl, ?_⟩
    intro col hcol
    by_cases heq : col = c.col
    · rw [heq, Function.update_self]
      rfl
    · rwa [Function.update_of_ne heq]

theorem addColumn_foldlM_ok {cs : List DualWriteCol} (columns : Columns)
    (hself : ∀ c ∈ cs, names.unquoted c.col = some c.col) :
    ∃ columns', cs.foldlM (addColumn names) columns = some columns' ∧
      (∀ col, (columns col).isSome → (columns' col).isSome) ∧
      ∀ c ∈ cs, (columns' c.col).isSome := by
  induction cs generalizing columns with
  | nil => exact ⟨columns, rfl, fun _ h => h, nofun⟩
  | cons c cs ih =>
    obtain ⟨hc, hcs⟩ := List.forall_mem_cons.mp hself
    have hstep : ∃ next, addColumn names columns c = some next := by
      rw [addColumn, hc, Option.bind_eq_bind, Option.bind_some]
      split <;> exact ⟨_, rfl⟩
    obtain ⟨next, hnext⟩ := hstep
    obtain ⟨hthere, hkept⟩ := addColumn_self hc hnext
    obtain ⟨columns', hfold, hkept', hthere'⟩ := ih next hcs
    refine ⟨columns', ?_, fun col hcol => hkept' col (hkept col hcol), ?_⟩
    · rw [List.foldlM_cons, hnext]
      exact hfold
    · exact List.forall_mem_cons.mpr ⟨hkept' c.col hthere, hthere'⟩

theorem addColumns_iff (g : GsiSpec) (columns : Columns) (hnamed : ∀ c ∈ g.cols, c.col = c.attr) :
    (∃ columns', addColumns (pgNames printed schema) g columns = some columns' ∧
      ∀ c ∈ g.cols, KeyColumn (pgNames printed schema) columns' c.attr) ↔
    ∀ c ∈ g.cols, plainColumn c.attr := by
  constructor
  · rintro ⟨columns', _, hkeys⟩ c hc
    exact (keyColumn_iff.mp (hkeys c hc)).1
  · intro hplain
    have hself : ∀ c ∈ g.cols, (pgNames printed schema).unquoted c.col = some c.col := by
      intro c hc
      rw [hnamed c hc]
      exact (unquoted_self_iff c.attr).mpr (hplain c hc)
    obtain ⟨columns', hadd, _, hthere⟩ := addColumn_foldlM_ok columns hself
    refine ⟨columns', hadd, fun c hc => keyColumn_iff.mpr ⟨hplain c hc, ?_⟩⟩
    rw [← hnamed c hc]
    exact hthere c hc

theorem plannedSpec_named {hex8 : String → String} {pgTable : String} {plan : GsiPlan}
    {mode : GsiMode}
    {serveable : Bool} {reason : Option String} :
    ∀ c ∈ (plannedSpec hex8 pgTable plan mode serveable reason).cols, c.col = c.attr := by
  refine List.forall_mem_cons.mpr ⟨rfl, ?_⟩
  intro c hc
  obtain ⟨s, _, rfl⟩ := Option.map_eq_some_iff.mp (Option.mem_toList.mp hc)
  rfl

/-- The columns of CREATE TABLE and ADD COLUMN are there and are those the data plane and the
reconciler mean, exactly if the attributes are plain column names; for CREATE TABLE they must differ
from each other and from the JSONB column. -/
theorem key_column_names_iff (printed : String → String) (schema : String)
    (hex8 : String → String) :
    (∀ plan : CreateTablePlan,
      (∃ columns, createColumns (pgNames printed schema) plan = some columns ∧
        ∀ c ∈ emittedCols plan, KeyColumn (pgNames printed schema) columns c.1) ↔
      (∀ c ∈ emittedCols plan, plainColumn c.1 = true ∧ c.1 ≠ "data") ∧
        ∀ s, plan.sk = some s → s.1 ≠ plan.pkAttr) ∧
    ∀ (pgTable : String) (plan : GsiPlan) (columns : Columns),
      (∃ columns', addColumns (pgNames printed schema)
          (plannedSpec hex8 pgTable plan .dualWrite false (some creatingReason)) columns
            = some columns' ∧
        ∀ c ∈ plan.partition :: plan.sort.toList,
          KeyColumn (pgNames printed schema) columns' c.1) ↔
      ∀ c ∈ plan.partition :: plan.sort.toList, plainColumn c.1 = true := by
  refine ⟨createColumns_iff, ?_⟩
  intro pgTable plan columns
  have hadd := @addColumns_iff printed schema
    (plannedSpec hex8 pgTable plan .dualWrite false (some creatingReason)) columns plannedSpec_named
  have hcols : ∀ p : String → Prop,
      (∀ c ∈ (plannedSpec hex8 pgTable plan .dualWrite false (some creatingReason)).cols, p c.attr) ↔
        ∀ c ∈ plan.partition :: plan.sort.toList, p c.1 := by
    intro p
    cases hs : plan.sort <;> simp [plannedSpec, GsiSpec.cols, hs]
  rw [← hcols fun attr => plainColumn attr = true, ← hadd]
  refine exists_congr fun columns' => and_congr_right fun _ => ?_
  exact (hcols fun attr => KeyColumn (pgNames printed schema) columns' attr).symm

end

/-- The table has a column `id`; statements and the reconciler ask for `Id`. -/
theorem mixed_case_key_accepted :
    validateCreateTable (hashRequest "Id") = .ok (hashPlan "Id") ∧
    quotedColumn (quoteIdent "Id") = some "Id" ∧
    ∃ columns, createColumns (pgNames id "public") (hashPlan "Id") = some columns ∧
      columns "id" = some ⟨.text, true⟩ ∧ columns "Id" = none := by
  refine ⟨rfl, by decide, ?_⟩
  exact ⟨_, rfl, rfl, rfl⟩

end Rektifier
