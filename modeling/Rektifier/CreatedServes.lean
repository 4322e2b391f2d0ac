import Rektifier.EmittedColumns
import Rektifier.IntrospectSound

namespace Rektifier

open List Function

def planIndexes (hex8 : String → String) (plan : CreateTablePlan) : List (String × List String) :=
  let pgTable := sanitizePgTableName hex8 plan.tableName
  plan.lsis.map (fun l => (deriveLsiIndexName hex8 pgTable l.1, [plan.pkAttr, l.2.1]))
    ++ plan.gsis.map fun g =>
      (deriveGsiIndexName hex8 pgTable g.name, g.partition.1 :: (g.sort.map Prod.fst).toList)

abbrev createdCatalogEntry (hex8 : String → String) (plan : CreateTablePlan) : CatalogEntry :=
  (createEntry hex8 plan).catalogEntry hex8

def plannedLsi (hex8 : String → String) (plan : CreateTablePlan) (l : String × String × KeyType) :
    LsiSpec :=
  ⟨l.1, l.2.1, l.2.2, l.2.1, deriveLsiIndexName hex8 (sanitizePgTableName hex8 plan.tableName) l.1,
    true, none⟩

def plannedGsi (hex8 : String → String) (plan : CreateTablePlan) (g : GsiPlan) : GsiSpec :=
  plannedSpec hex8 (sanitizePgTableName hex8 plan.tableName) g .generated true none

def gsiKeys (g : GsiPlan) : List String :=
  g.partition.1 :: (g.sort.map Prod.fst).toList

/-- What `CREATE INDEX … (cols) INCLUDE (data)` makes. -/
def createdIndex (i : String × List String) : IndexDef :=
  ⟨foldedName i.1, false, "btree", i.2.map fun c => .column (foldedName c) [], ["data"], ""⟩

/-- `IF NOT EXISTS`. -/
def createIndex (indexes : List IndexDef) (d : IndexDef) : List IndexDef :=
  if d.name ∈ indexes.map IndexDef.name then indexes else indexes ++ [d]

theorem createIndex_nodup {indexes : List IndexDef} (h : (indexes.map IndexDef.name).Nodup)
    (d : IndexDef) : ((createIndex indexes d).map IndexDef.name).Nodup := by
  unfold createIndex
  split
  next => exact h
  next hnew =>
    rw [map_append, map_singleton]
    exact nodup_append.mpr ⟨h, nodup_singleton _, fun a ha b hb =>
      mem_singleton.mp hb ▸ fun heq => hnew (heq ▸ ha)⟩

theorem foldl_createIndex_nodup (ds indexes : List IndexDef)
    (h : (indexes.map IndexDef.name).Nodup) :
    ((ds.foldl createIndex indexes).map IndexDef.name).Nodup := by
  induction ds generalizing indexes with
  | nil => exact h
  | cons d ds ih => exact ih _ (createIndex_nodup h d)

theorem foldl_createIndex_of_nodup (ds indexes : List IndexDef)
    (h : ((indexes ++ ds).map IndexDef.name).Nodup) :
    ds.foldl createIndex indexes = indexes ++ ds := by
  induction ds generalizing indexes with
  | nil => simp
  | cons d ds ih =>
    have hnew : d.name ∉ indexes.map IndexDef.name := by
      rw [map_append, nodup_append] at h
      exact fun hmem => h.2.2 _ hmem _ mem_cons_self rfl
    rw [foldl_cons, createIndex, if_neg hnew, ih, append_assoc]
    · rfl
    · rwa [append_assoc]

/-- What the statement block makes of distinct columns. -/
def createdTable (hex8 : String → String) (plan : CreateTablePlan)
    (h : (tableColumns plan).Nodup) : PhysicalTable where
  columns := ⟨"data", "jsonb", "NEVER"⟩ :: (emittedCols plan).map fun c =>
    ⟨foldedName c.1, c.2.columnType.dataType, "ALWAYS"⟩
  primaryKey := (plan.pkAttr :: (plan.sk.map Prod.fst).toList).map foldedName
  indexes := ((planIndexes hex8 plan).map createdIndex).foldl createIndex []
  columnsApart := by
    have hdata : foldedName "data" = "data" := by decide
    rw [tableColumns, map_cons, hdata, map_map] at h
    rw [map_cons, map_map]
    exact h
  indexesApart := foldl_createIndex_nodup _ [] nodup_nil

/-- None of its columns is printed in quotes, or the schema's name shows them. -/
def ShownIndex (schema : String) (i : String × List String) : Prop :=
  (∀ c ∈ i.2, printsPlain c = true) ∨ textContains schema (listText i.2) = true

section Names

variable {name : String}

theorem toLower_of_safe {c : Char} (h : isSafeChar c) : c.toLower = c := by
  refine Char.toLower_eq_of_not_isUpper ?_
  simp only [isSafeChar, Char.isLower, Char.isDigit, Char.isUpper, Bool.or_eq_true,
    Bool.and_eq_true, decide_eq_true_eq] at h ⊢
  rintro ⟨hlow, hhigh⟩
  rcases h with (h | h) | rfl
  · exact absurd (UInt32.le_trans h.1 hhigh) (by decide)
  · exact absurd (UInt32.le_trans hlow h.2) (by decide)
  · exact absurd hhigh (by decide)

theorem isNameChar_of_safe {c : Char} (h : isSafeChar c) : isNameChar c := by
  simp only [isSafeChar, Bool.or_eq_true, decide_eq_true_eq] at h
  simp only [isNameChar, Char.isAlphanum, Char.isAlpha, Bool.or_eq_true, decide_eq_true_eq]
  tauto

theorem foldedName_of_safe (hsafe : ∀ c ∈ name.toList, isSafeChar c)
    (hsize : name.utf8ByteSize ≤ pgIdentMax) : foldedName name = name := by
  have hfold : SqlIdent.fold name.toList = name.toList :=
    (map_congr_left fun c hc => toLower_of_safe (hsafe c hc)).trans (map_id _)
  have hname : ∀ c ∈ name.toList, isNameChar c := fun c hc => isNameChar_of_safe (hsafe c hc)
  have hbytes : SqlIdent.byteSize name.toList = name.utf8ByteSize := by
    rw [size_of_nameChars hname, SqlIdent.byteSize,
      map_congr_left fun c hc => utf8Size_of_isNameChar (hname c hc)]
    simp
  rw [foldedName, hfold, SqlIdent.clip_of_le (hbytes ▸ hsize), String.ofList_toList]

theorem foldedName_of_plain (h : plainColumn name) : foldedName name = name := by
  simp only [plainColumn, Bool.and_eq_true, decide_eq_true_eq, Bool.not_eq_true', and_assoc] at h
  obtain ⟨_, hfold, hsize, _⟩ := h
  rw [foldedName, hfold, SqlIdent.clip_of_le hsize, String.ofList_toList]

theorem sanitizeName_safe (name : String) : ∀ c ∈ sanitizeName name, isSafeChar c := by
  intro c hc
  rcases sanitizeName_mem hc with h | h | h <;> simp [isSafeChar, h]

def SafeText (s : String) : Prop := ∀ c ∈ s.toList, isSafeChar c = true

theorem SafeText.append {s s' : String} (h : SafeText s) (h' : SafeText s') :
    SafeText (s ++ s') := by
  intro c hc
  rw [String.toList_append, mem_append] at hc
  exact hc.elim (h c) (h' c)

theorem safeText_of_all {s : String} (h : s.toList.all isSafeChar) : SafeText s :=
  all_eq_true.mp h

theorem safeText_sanitized {cs : List Char} (h : cs ⊆ sanitizeName name) :
    SafeText (String.ofList cs) := by
  intro c hc
  rw [String.toList_ofList] at hc
  exact sanitizeName_safe name c (h hc)

variable {hex8 : String → String} (hhex : IsHex8 hex8)
include hhex

theorem safeText_hex8 (x : String) : SafeText (hex8 x) := by
  intro c hc
  have hdigits : "0123456789abcdef".toList.all isSafeChar := by decide
  exact all_eq_true.mp hdigits c ((hhex x).2 c hc)

theorem sanitizePgTableName_safe (table : String) :
    SafeText (sanitizePgTableName hex8 table) := by
  have hstart : SafeText "rekt_t_" := safeText_of_all (by decide)
  have hsep : SafeText "_" := safeText_of_all (by decide)
  unfold sanitizePgTableName
  simp only
  split
  next => exact hstart.append (safeText_sanitized (List.Subset.refl _))
  next =>
    exact ((hstart.append (safeText_sanitized (take_subset _ _))).append hsep).append
      (safeText_hex8 hhex _)

theorem deriveIndexName_safe {middle pgTable : String} (hmiddle : SafeText middle)
    (htable : SafeText pgTable) (index : String) :
    SafeText (deriveIndexName hex8 middle pgTable index) := by
  have hsep : SafeText "_" := safeText_of_all (by decide)
  have hend : SafeText "_idx" := safeText_of_all (by decide)
  rcases deriveIndexName_cases hex8 middle pgTable index with ⟨cs, hcs, heq⟩ | ⟨cs, x, hcs, heq⟩
  · rw [heq]
    exact ((htable.append hmiddle).append (safeText_sanitized hcs)).append hend
  · rw [heq]
    exact ((((htable.append hmiddle).append (safeText_sanitized hcs)).append hsep).append
      (safeText_hex8 hhex x)).append hend

theorem planIndexes_safe (plan : CreateTablePlan) :
    ∀ i ∈ planIndexes hex8 plan, SafeText i.1 := by
  have htable := sanitizePgTableName_safe hhex plan.tableName
  have hlsi : SafeText "_lsi_" := safeText_of_all (by decide)
  have hgsi : SafeText "_gsi_" := safeText_of_all (by decide)
  intro i hi
  rw [planIndexes, mem_append, mem_map, mem_map] at hi
  rcases hi with ⟨l, _, rfl⟩ | ⟨g, _, rfl⟩
  · dsimp only
    rw [deriveLsiIndexName]
    exact deriveIndexName_safe hhex hlsi htable l.1
  · dsimp only
    rw [deriveGsiIndexName]
    exact deriveIndexName_safe hhex hgsi htable g.name

end Names

section Shown

variable {schema table : String} {i : String × List String}

theorem quoteIdentifier_self_iff (name : String) :
    quoteIdentifier name = name ↔ printsPlain name := by
  constructor
  · intro h
    by_contra hplain
    rw [quoteIdentifier, if_neg hplain] at h
    have hlength := congrArg (fun s => s.toList.length) h
    have hle := SqlLiteral.length_le_double (q := '"') name.toList
    unfold quoteIdent at hlength
    simp only [String.toList_append, String.toList_ofList, List.length_append] at hlength
    have hquote : "\"".toList.length = 1 := by decide
    omega
  · intro h
    exact (quoteIdentifier_eq_iff h).mpr rfl

/-- Only the schema's name can show a list in parentheses there. -/
theorem head_contains_iff {d : IndexDef} {cols : List String} (hname : SafeText d.name)
    (htable : SafeText table) (hmethod : d.method = "btree") :
    textContains (d.head schema table) (listText cols) ↔
      textContains schema (listText cols) := by
  have hsafe : ∀ s, SafeText s → '(' ∉ (quoteIdentifier s).toList ∧
      ')' ∉ (quoteIdentifier s).toList := by
    intro s hs
    have hmarks := isMark_quoteIdentifier fun c hc => isMark_of_safe (hs c hc)
    exact ⟨(not_mem_of_isMark hmarks).1, (not_mem_of_isMark hmarks).2.1⟩
  have hbefore : '(' ∉ "CREATE ".toList ++ (if d.unique then "UNIQUE " else "").toList
      ++ "INDEX ".toList ++ (quoteIdentifier d.name).toList ++ " ON ".toList := by
    simp only [mem_append, not_or]
    refine ⟨⟨⟨⟨by decide, ?_⟩, by decide⟩, (hsafe _ hname).1⟩, by decide⟩
    cases d.unique <;> decide
  have hafter : ')' ∉ ".".toList ++ (quoteIdentifier table).toList ++ " USING ".toList
      ++ "btree".toList ++ " ".toList := by
    simp only [mem_append, not_or]
    exact ⟨⟨⟨⟨by decide, (hsafe _ htable).2⟩, by decide⟩, by decide⟩, by decide⟩
  have hhead : (d.head schema table).toList = ("CREATE ".toList
      ++ (if d.unique then "UNIQUE " else "").toList ++ "INDEX ".toList
      ++ (quoteIdentifier d.name).toList ++ " ON ".toList) ++ (schema.toList
      ++ (".".toList ++ (quoteIdentifier table).toList ++ " USING ".toList ++ "btree".toList
      ++ " ".toList)) := by
    unfold IndexDef.head
    simp only [hmethod, String.toList_append, append_assoc]
  rw [textContains_iff, textContains_iff, hhead, listText_toList,
    Delimited.infix_append_of_start hbefore, ← cons_append,
    Delimited.infix_append_of_end hafter]

theorem textContains_empty (cols : List String) : textContains "" (listText cols) = false := by
  have hempty : "".toList = [] := by decide
  rw [← Bool.not_eq_true, textContains_iff, listText_toList, hempty]
  intro hin
  have hnil := infix_nil.mp hin
  cases hnil

theorem isMark_of_plainColumn {col : String} (h : plainColumn col) :
    ∀ c ∈ col.toList, isMark c = false := by
  simp only [plainColumn, Bool.and_eq_true, decide_eq_true_eq, Bool.not_eq_true', and_assoc] at h
  intro c hc
  have hpart := SqlIdent.isPart_of_isIdent h.1 c hc
  by_contra hmark
  simp only [isMark, Bool.not_eq_false, Bool.or_eq_true, decide_eq_true_eq] at hmark
  rcases hmark with (rfl | rfl) | rfl <;> exact absurd hpart (by decide)

/-- A new index shows its columns exactly if none is printed in quotes, but for an odd name of the
schema. -/
theorem createdIndex_shows_iff (hname : SafeText (foldedName i.1)) (htable : SafeText table)
    (hne : i.2 ≠ []) (hcols : ∀ c ∈ i.2, plainColumn c ∧ c ≠ "data") :
    textContains ((createdIndex i).text schema table) (listText i.2) ↔
      ShownIndex schema i := by
  have hkeys : (createdIndex i).keys = i.2.map fun c => .column c [] :=
    map_congr_left fun c hc => by rw [foldedName_of_plain (hcols c hc).1]
  have hmarks : ∀ c ∈ i.2, ∀ a ∈ c.toList, isMark a = false := fun c hc =>
    isMark_of_plainColumn (hcols c hc).1
  have hdata : ∀ n ∈ (createdIndex i).included, ∀ a ∈ n.toList, isMark a = false := by
    intro n hn
    rw [mem_singleton.mp hn]
    exact isMark_of_plain (by decide +kernel)
  have hprinted : (createdIndex i).keys.map IndexKey.text = i.2 ↔
      ∀ c ∈ i.2, printsPlain c := by
    have htexts : (createdIndex i).keys.map IndexKey.text = i.2.map quoteIdentifier := by
      rw [hkeys, map_map]
      exact map_congr_left fun c _ => by simp [IndexKey.text]
    rw [htexts]
    constructor
    · intro h c hc
      have hself := map_inj_left.mp (h.trans (map_id i.2).symm) c hc
      exact (quoteIdentifier_self_iff c).mp hself
    · intro h
      exact (map_quoteIdentifier_iff h).mpr rfl
  have hincluded : (createdIndex i).included.map quoteIdentifier ≠ i.2 := by
    intro h
    have hplain : quoteIdentifier "data" = "data" := by decide +kernel
    have hmem : quoteIdentifier "data" ∈ i.2 := h ▸ mem_map_of_mem mem_cons_self
    exact (hcols _ hmem).2 hplain
  have hrest : textContains (createdIndex i).rest (listText i.2) = false :=
    textContains_empty i.2
  have hhead : textContains ((createdIndex i).head schema table) (listText i.2) ↔
      textContains schema (listText i.2) :=
    @head_contains_iff schema table (createdIndex i) i.2 hname htable rfl
  rw [text_contains_iff (plainLists_of_names hkeys hmarks hdata)
      ⟨hne, fun c hc => (plainColumn_spec (hcols c hc).1).1, hmarks⟩, hhead, hprinted, hrest,
    ShownIndex]
  simp only [hincluded, Bool.false_eq_true, or_false]
  exact or_comm

end Shown

/-- The names of an accepted plan, where PostgreSQL takes them as they are. -/
structure PlainPlan (hex8 : String → String) (plan : CreateTablePlan) : Prop where
  base : ∀ s, plan.sk = some s → s.1 ≠ plan.pkAttr
  columns : ∀ c ∈ emittedCols plan, plainColumn c.1 = true ∧ c.1 ≠ "data"
  indexesApart : ((planIndexes hex8 plan).map Prod.fst).Nodup
  indexesFit : ∀ i ∈ planIndexes hex8 plan, i.1.utf8ByteSize ≤ pgIdentMax

section Created

variable {req : CreateTableRequest} {plan : CreateTablePlan} {hex8 : String → String}
  {schema : String}

theorem PlainPlan.tableColumns_nodup (h : PlainPlan hex8 plan) : (tableColumns plan).Nodup := by
  have hdata : foldedName "data" = "data" := by decide
  have hfolded : ((emittedCols plan).map Prod.fst).map foldedName
      = (emittedCols plan).map Prod.fst := by
    refine (map_congr_left fun attr hattr => ?_).trans (map_id _)
    obtain ⟨c, hc, rfl⟩ := mem_map.mp hattr
    exact foldedName_of_plain (h.columns c hc).1
  rw [tableColumns, map_cons, hdata, hfolded, nodup_cons, emittedCols_nodup_iff]
  refine ⟨?_, h.base⟩
  intro hmem
  obtain ⟨c, hc, heq⟩ := mem_map.mp hmem
  exact (h.columns c hc).2 heq

theorem PlainPlan.foldedName_index (h : PlainPlan hex8 plan) (hhex : IsHex8 hex8) :
    ∀ i ∈ planIndexes hex8 plan, foldedName i.1 = i.1 :=
  fun i hi => foldedName_of_safe (planIndexes_safe hhex plan i hi) (h.indexesFit i hi)

theorem PlainPlan.createdTable_indexes (h : PlainPlan hex8 plan) (hhex : IsHex8 hex8)
    (hapart : (tableColumns plan).Nodup) :
    (createdTable hex8 plan hapart).indexes = (planIndexes hex8 plan).map createdIndex := by
  have hnames : ((planIndexes hex8 plan).map createdIndex).map IndexDef.name
      = (planIndexes hex8 plan).map Prod.fst := by
    rw [map_map]
    exact map_congr_left fun i hi => h.foldedName_index hhex i hi
  have hnodup : (([] ++ (planIndexes hex8 plan).map createdIndex).map IndexDef.name).Nodup := by
    rw [nil_append, hnames]
    exact h.indexesApart
  exact foldl_createIndex_of_nodup _ [] hnodup

theorem PlainPlan.index_found_iff (h : PlainPlan hex8 plan) (hhex : IsHex8 hex8)
    (hapart : (tableColumns plan).Nodup) {name : String} {cols : List String}
    (hi : (name, cols) ∈ planIndexes hex8 plan) (hne : cols ≠ [])
    (hcols : ∀ attr ∈ cols, attr ∈ (emittedCols plan).map Prod.fst) :
    (∃ d ∈ (createdTable hex8 plan hapart).indexes, d.name = name ∧ textContains
        (d.text schema (sanitizePgTableName hex8 plan.tableName)) (listText cols)) ↔
      ShownIndex schema (name, cols) := by
  have hname : foldedName name = name := h.foldedName_index hhex _ hi
  have hsafe : SafeText (foldedName name) := hname.symm ▸ planIndexes_safe hhex plan _ hi
  have hplain : ∀ attr ∈ cols, plainColumn attr ∧ attr ≠ "data" := by
    intro attr hattr
    obtain ⟨c, hc, rfl⟩ := mem_map.mp (hcols attr hattr)
    exact h.columns c hc
  have hshows := @createdIndex_shows_iff schema _ (name, cols) hsafe
    (sanitizePgTableName_safe hhex plan.tableName) hne hplain
  rw [h.createdTable_indexes hhex hapart, ← hshows]
  constructor
  · rintro ⟨d, hd, heq, hcontains⟩
    obtain ⟨j, hj, rfl⟩ := mem_map.mp hd
    have hsame : j.1 = name := (h.foldedName_index hhex j hj).symm.trans heq
    obtain rfl := inj_on_of_nodup_map h.indexesApart hj hi hsame
    exact hcontains
  · exact fun hcontains => ⟨_, mem_map_of_mem hi, hname, hcontains⟩

theorem planIndexes_eq : planIndexes hex8 plan
    = plan.lsis.map (fun l => ((plannedLsi hex8 plan l).indexName, [plan.pkAttr, l.2.1]))
      ++ plan.gsis.map fun g => ((plannedGsi hex8 plan g).indexName, gsiKeys g) := by
  simp only [planIndexes, plannedLsi, plannedGsi, plannedSpec, gsiKeys]

theorem catalogEntry_pgTable :
    (createdCatalogEntry hex8 plan).pgTable = sanitizePgTableName hex8 plan.tableName := by
  simp only [TableEntry.catalogEntry, createEntry]

theorem catalogEntry_pkAttr : (createdCatalogEntry hex8 plan).pkAttr = plan.pkAttr := by
  simp only [TableEntry.catalogEntry, createEntry]

variable (hreq : validateCreateTable req = .ok plan) (h : PlainPlan hex8 plan)
include hreq h

theorem createdTable_hasColumn {hapart : (tableColumns plan).Nodup} {c : String × KeyType}
    (hc : plan.Key c) : (createdTable hex8 plan hapart).HasColumn c.1 c.2 true := by
  have hmem := (mem_emittedCols_iff_key hreq).mpr hc
  refine ⟨_, mem_cons_of_mem _ (mem_map_of_mem hmem),
    foldedName_of_plain (h.columns c hmem).1, rfl, ?_⟩
  simp

theorem createdTable_baseReason (hapart : (tableColumns plan).Nodup) :
    (createdTable hex8 plan hapart).baseReason (createdCatalogEntry hex8 plan) = none := by
  have hbase : ∀ c ∈ (createdCatalogEntry hex8 plan).baseKey, plan.Key c := fun c hc => .inl hc
  refine PhysicalTable.baseReason_none.mpr ⟨.inr ⟨_, mem_cons_self, rfl, rfl, ?_⟩,
    fun c hc => createdTable_hasColumn hreq h (hbase c hc), ?_⟩
  · decide
  · have hkeys : (createdCatalogEntry hex8 plan).baseKey.map Prod.fst
        = plan.pkAttr :: (plan.sk.map Prod.fst).toList := by
      cases hsk : plan.sk <;>
        simp [CatalogEntry.baseKey, TableEntry.catalogEntry, createEntry, hsk]
    rw [hkeys]
    refine (map_congr_left fun attr hattr => ?_).trans (map_id _)
    rw [← hkeys] at hattr
    obtain ⟨c, hc, rfl⟩ := mem_map.mp hattr
    exact foldedName_of_plain (h.columns c ((mem_emittedCols_iff_key hreq).mpr (hbase c hc))).1

omit hreq in
theorem createdTable_shows (hapart : (tableColumns plan).Nodup) (schema : String) :
    ∃ columns, createColumns (pgNames quoteIdentifier schema) plan = some columns ∧
      (createdTable hex8 plan hapart).Shows columns := by
  have hself : ∀ c ∈ emittedCols plan,
      (pgNames quoteIdentifier schema).unquoted c.1 = some (id c.1) :=
    fun c hc => (unquoted_self_iff c.1).mpr (h.columns c hc).1
  have hnodup := (emittedCols_nodup_iff plan).mpr h.base
  have hnew : ∀ c ∈ emittedCols plan, update (fun _ => none) "data"
      (some (⟨.jsonb, false⟩ : ColumnInfo)) (id c.1) = none :=
    fun c hc => update_of_ne (h.columns c hc).2 _ _
  obtain ⟨columns, hcreate, hkept, hthere⟩ := createColumn_foldlM_ok hself hnodup hnew
  refine ⟨columns, hcreate, fun col => ?_⟩
  by_cases hdata : col = "data"
  · subst hdata
    have hfound : (createdTable hex8 plan hapart).column? "data" = some ⟨"data", "jsonb", "NEVER"⟩ :=
      PhysicalTable.column?_eq_some_iff.mpr ⟨mem_cons_self, rfl⟩
    rw [PhysicalTable.view, Columns.view, hkept "data" fun c hc => (h.columns c hc).2,
      update_self, hfound]
    rfl
  · by_cases hcol : ∃ c ∈ emittedCols plan, c.1 = col
    · obtain ⟨c, hc, rfl⟩ := hcol
      have hfound : (createdTable hex8 plan hapart).column? c.1
          = some ⟨foldedName c.1, c.2.columnType.dataType, "ALWAYS"⟩ :=
        PhysicalTable.column?_eq_some_iff.mpr
          ⟨mem_cons_of_mem _ (mem_map_of_mem hc), foldedName_of_plain (h.columns c hc).1⟩
      have hmade : columns c.1 = some ⟨c.2.columnType, true⟩ := hthere c hc
      rw [PhysicalTable.view, Columns.view, hfound, hmade]
      rfl
    · have hother : ∀ c ∈ emittedCols plan, id c.1 ≠ col := fun c hc heq => hcol ⟨c, hc, heq⟩
      have hmissing : (createdTable hex8 plan hapart).column? col = none := by
        refine List.find?_eq_none.mpr (forall_mem_cons.mpr ⟨?_, ?_⟩)
        · simpa using Ne.symm hdata
        · intro raw hraw
          obtain ⟨c, hc, rfl⟩ := mem_map.mp hraw
          rw [decide_eq_true_eq, foldedName_of_plain (h.columns c hc).1]
          exact hother c hc
      rw [PhysicalTable.view, Columns.view, hkept col hother, update_of_ne hdata, hmissing]
      rfl

variable (hhex : IsHex8 hex8) (hapart : (tableColumns plan).Nodup)
include hhex

theorem createdTable_lsi_iff {l : String × String × KeyType} (hl : l ∈ plan.lsis) :
    (createdTable hex8 plan hapart).lsiReason schema (createdCatalogEntry hex8 plan)
        (plannedLsi hex8 plan l) = none ↔
      ShownIndex schema ((plannedLsi hex8 plan l).indexName, [plan.pkAttr, l.2.1]) := by
  have hkey : plan.Key l.2 := .inr (.inl (mem_map_of_mem hl))
  have hpk : plan.Key (plan.pkAttr, plan.pkType) := .inl mem_cons_self
  have hthere : (createdTable hex8 plan hapart).HasLsiColumns (plannedLsi hex8 plan l) :=
    createdTable_hasColumn hreq h hkey
  have hindex : ((plannedLsi hex8 plan l).indexName, [plan.pkAttr, l.2.1])
      ∈ planIndexes hex8 plan := by
    rw [planIndexes_eq]
    exact mem_append_left _ (mem_map.mpr ⟨l, hl, rfl⟩)
  have hcols : ∀ attr ∈ [plan.pkAttr, l.2.1], attr ∈ (emittedCols plan).map Prod.fst :=
    forall_mem_cons.mpr ⟨hpk.emitted, forall_mem_singleton.mpr hkey.emitted⟩
  have hcol : (plannedLsi hex8 plan l).sortPgCol = l.2.1 := rfl
  rw [PhysicalTable.lsiReason_none, and_iff_right hthere, catalogEntry_pgTable,
    catalogEntry_pkAttr, hcol]
  exact h.index_found_iff hhex hapart hindex (cons_ne_nil _ _) hcols

theorem createdTable_gsi_iff {g : GsiPlan} (hg : g ∈ plan.gsis) :
    (createdTable hex8 plan hapart).gsiReason schema (createdCatalogEntry hex8 plan)
        (plannedGsi hex8 plan g) = none ↔
      ShownIndex schema ((plannedGsi hex8 plan g).indexName, gsiKeys g) := by
  have hkeys : ∀ c ∈ g.partition :: g.sort.toList, plan.Key c := fun c hc => .inr (.inr ⟨g, hg, hc⟩)
  have hspec : (plannedGsi hex8 plan g).cols
      = (g.partition :: g.sort.toList).map fun c => ⟨c.1, c.1, c.2⟩ := by
    cases hs : g.sort <;> simp [plannedGsi, GsiSpec.cols, plannedSpec, hs]
  have hcols : (plannedGsi hex8 plan g).columns = gsiKeys g := by
    rw [GsiSpec.columns, hspec, gsiKeys]
    cases g.sort <;> rfl
  have hthere : (createdTable hex8 plan hapart).HasGsiColumns (plannedGsi hex8 plan g) := by
    intro c hc
    rw [hspec] at hc
    obtain ⟨key, hkey, rfl⟩ := mem_map.mp hc
    exact createdTable_hasColumn hreq h (hkeys key hkey)
  have hemitted : ∀ attr ∈ gsiKeys g, attr ∈ (emittedCols plan).map Prod.fst := by
    intro attr hattr
    rw [← hcols, GsiSpec.columns, hspec, map_map] at hattr
    obtain ⟨key, hkey, rfl⟩ := mem_map.mp hattr
    exact (hkeys key hkey).emitted
  have hindex : ((plannedGsi hex8 plan g).indexName, gsiKeys g) ∈ planIndexes hex8 plan := by
    rw [planIndexes_eq]
    exact mem_append_right _ (mem_map.mpr ⟨g, hg, rfl⟩)
  rw [PhysicalTable.gsiReason_none, and_iff_right hthere, catalogEntry_pgTable, hcols]
  exact h.index_found_iff hhex hapart hindex (cons_ne_nil _ _) hemitted

omit h hhex in
theorem mem_catalogEntry_gsis {spec : GsiSpec} :
    spec ∈ (createdCatalogEntry hex8 plan).gsis ↔
      ∃ g ∈ plan.gsis, plannedGsi hex8 plan g = spec := by
  have hnames : ((plan.gsis.map fun g => (g.name, plannedGsi hex8 plan g)).map Prod.fst).Nodup := by
    rw [map_map]
    exact (validateCreateTable_names hreq).2
  constructor
  · intro hspec
    obtain ⟨⟨name, spec⟩, hmem, rfl⟩ := mem_map.mp hspec
    obtain ⟨g, hg, heq⟩ := mem_map.mp
      ((OrderedMap.get_ofList_iff hnames).mp (OrderedMap.get_of_mem hmem))
    exact ⟨g, hg, (Prod.mk.inj heq).2⟩
  · rintro ⟨g, hg, rfl⟩
    have hget := (OrderedMap.get_ofList_iff hnames).mpr (mem_map.mpr ⟨g, hg, rfl⟩)
    exact mem_map.mpr ⟨_, Entries.get_eq_some_mem hget, rfl⟩

omit hreq h hhex in
theorem catalogEntry_lsis :
    (createdCatalogEntry hex8 plan).lsis = plan.lsis.map (plannedLsi hex8 plan) := by
  simp only [TableEntry.catalogEntry, createEntry, map_map]
  rfl

theorem createdTable_lsis_iff :
    (∀ l ∈ (createdCatalogEntry hex8 plan).lsis, (createdTable hex8 plan hapart).lsiReason
        schema (createdCatalogEntry hex8 plan) l = none) ↔
      ∀ l ∈ plan.lsis, ShownIndex schema ((plannedLsi hex8 plan l).indexName,
        [plan.pkAttr, l.2.1]) := by
  rw [catalogEntry_lsis, forall_mem_map]
  exact forall₂_congr fun l hl => createdTable_lsi_iff hreq h hhex hapart hl

theorem createdTable_gsis_iff :
    (∀ g ∈ (createdCatalogEntry hex8 plan).gsis, (createdTable hex8 plan hapart).gsiReason
        schema (createdCatalogEntry hex8 plan) g = none) ↔
      ∀ g ∈ plan.gsis, ShownIndex schema ((plannedGsi hex8 plan g).indexName, gsiKeys g) := by
  simp only [mem_catalogEntry_gsis hreq, forall_exists_index, and_imp, forall_apply_eq_imp_iff₂]
  exact forall₂_congr fun g hg => createdTable_gsi_iff hreq h hhex hapart hg

omit hhex in
/-- The pass after creation keeps the table Active and serveable, and each LSI and GSI exactly if
the definition of its index shows its columns. -/
theorem created_table_serves_iff (hhex : IsHex8 hex8) (schema : String) :
    (∃ columns, createColumns (pgNames quoteIdentifier schema) plan = some columns ∧
      (createdTable hex8 plan h.tableColumns_nodup).Shows columns) ∧
    ((createdTable hex8 plan h.tableColumns_nodup).introspect schema
      ((createEntry hex8 plan).catalogEntry hex8)).status = .active ∧
    ((createdTable hex8 plan h.tableColumns_nodup).introspect schema
      ((createEntry hex8 plan).catalogEntry hex8)).serveable = true ∧
    (((∀ l ∈ ((createdTable hex8 plan h.tableColumns_nodup).introspect schema
        ((createEntry hex8 plan).catalogEntry hex8)).lsis, l.serveable = true) ∧
      ∀ g ∈ ((createdTable hex8 plan h.tableColumns_nodup).introspect schema
        ((createEntry hex8 plan).catalogEntry hex8)).gsis, g.serveable = true) ↔
    ∀ i ∈ planIndexes hex8 plan, ShownIndex schema i) := by
  refine ⟨createdTable_shows h _ schema, ?_⟩
  rw [PhysicalTable.introspect_of_none (createdTable_baseReason hreq h h.tableColumns_nodup)]
  refine ⟨rfl, rfl, ?_⟩
  rw [planIndexes_eq, forall_mem_append]
  simp only [forall_mem_map, LsiSpec.judged, GsiSpec.judged, Option.isNone_iff_eq_none]
  rw [createdTable_lsis_iff hreq h hhex h.tableColumns_nodup,
    createdTable_gsis_iff hreq h hhex h.tableColumns_nodup]

end Created

/-- An LSI and a GSI that sort by one attribute. -/
def sortedRequest (attr : String) : CreateTableRequest :=
  { hashRequest "id" with
    keySchema := [⟨"id", "HASH"⟩, ⟨"no", "RANGE"⟩]
    attributeDefinitions := [⟨"id", "S"⟩, ⟨"no", "N"⟩, ⟨attr, "S"⟩]
    localSecondaryIndexes := some [⟨"by-time", [⟨"id", "HASH"⟩, ⟨attr, "RANGE"⟩], none⟩]
    globalSecondaryIndexes := some [⟨"no-time", [⟨"no", "HASH"⟩, ⟨attr, "RANGE"⟩], none⟩] }

def sortedPlan (attr : String) : CreateTablePlan :=
  ⟨"orders", "id", .s, some ("no", .n), [("by-time", attr, .s)],
    [⟨"no-time", ("no", .n), some (attr, .s)⟩]⟩

def zeroHex (_ : String) : String := "00000000"

theorem zeroHex_isHex8 : IsHex8 zeroHex := by
  have hlist : "00000000".toList = List.replicate 8 '0' := by decide
  intro x
  rw [zeroHex, hlist]
  refine ⟨rfl, fun c hc => ?_⟩
  rw [eq_of_mem_replicate hc]
  decide

theorem sortedPlan_plain (attr : String) (hcols : ∀ c ∈ emittedCols (sortedPlan attr),
    plainColumn c.1 ∧ c.1 ≠ "data") : PlainPlan zeroHex (sortedPlan attr) := by
  have hindexes : (planIndexes zeroHex (sortedPlan attr)).map Prod.fst
      = ["rekt_t_orders_lsi_by_time_idx", "rekt_t_orders_gsi_no_time_idx"] := by
    have hlsi : deriveLsiIndexName zeroHex (sanitizePgTableName zeroHex "orders") "by-time"
        = "rekt_t_orders_lsi_by_time_idx" := by decide
    have hgsi : deriveGsiIndexName zeroHex (sanitizePgTableName zeroHex "orders") "no-time"
        = "rekt_t_orders_gsi_no_time_idx" := by decide
    simp only [planIndexes, sortedPlan, map_cons, map_nil,
      singleton_append]
    rw [hlsi, hgsi]
  refine ⟨?_, hcols, ?_, ?_⟩
  · intro s hs
    cases hs
    exact (by decide : "no" ≠ "id")
  · rw [hindexes]
    decide
  · intro i hi
    have hmem := mem_map_of_mem (f := Prod.fst) hi
    rw [hindexes] at hmem
    have hfit : ∀ n ∈ ["rekt_t_orders_lsi_by_time_idx", "rekt_t_orders_gsi_no_time_idx"],
        n.utf8ByteSize ≤ pgIdentMax := by decide
    exact hfit _ hmem

theorem sortedPlan_columns {attr : String} (h : emittedCols (sortedPlan attr)
    = [("id", .s), ("no", .n), (attr, .s)]) (hplain : plainColumn attr)
    (hdata : attr ≠ "data") :
    ∀ c ∈ emittedCols (sortedPlan attr), plainColumn c.1 ∧ c.1 ≠ "data" := by
  rw [h]
  have hfixed : ∀ c ∈ [("id", KeyType.s), ("no", .n)], plainColumn c.1 ∧ c.1 ≠ "data" := by
    decide +kernel
  intro c hc
  rcases mem_append.mp (show c ∈ [("id", KeyType.s), ("no", .n)] ++ [(attr, .s)] from hc)
    with hc | hc
  · exact hfixed c hc
  · rw [mem_singleton.mp hc]
    exact ⟨hplain, hdata⟩

theorem created_table_serves_at :
    PlainPlan zeroHex (sortedPlan "at") ∧
    ∃ hapart, ((createdTable zeroHex (sortedPlan "at") hapart).introspect "public"
      ((createEntry zeroHex (sortedPlan "at")).catalogEntry zeroHex)).status = .active := by
  have hplan : validateCreateTable (sortedRequest "at") = .ok (sortedPlan "at") := rfl
  have hplain := sortedPlan_plain "at" (sortedPlan_columns (by decide) (by decide +kernel) (by decide))
  exact ⟨hplain, hplain.tableColumns_nodup,
    (created_table_serves_iff hplan hplain zeroHex_isHex8 "public").2.1⟩

/-- `timestamp` is a column name as it is, but it is printed in quotes. -/
theorem keyword_column_not_served :
    validateCreateTable (sortedRequest "timestamp") = .ok (sortedPlan "timestamp") ∧
    PlainPlan zeroHex (sortedPlan "timestamp") ∧
    ∃ hapart,
      (∀ l ∈ ((createdTable zeroHex (sortedPlan "timestamp") hapart).introspect "public"
        ((createEntry zeroHex (sortedPlan "timestamp")).catalogEntry zeroHex)).lsis,
        l.serveable = false) ∧
      ((createdTable zeroHex (sortedPlan "timestamp") hapart).introspect "public"
        ((createEntry zeroHex (sortedPlan "timestamp")).catalogEntry zeroHex)).lsis.length = 1 := by
  have hplan : validateCreateTable (sortedRequest "timestamp") = .ok (sortedPlan "timestamp") := rfl
  have hplain := sortedPlan_plain "timestamp"
    (sortedPlan_columns (by decide) (by decide +kernel) (by decide))
  have hschema : textContains "public" (listText ["id", "timestamp"]) = false := by decide
  have hquoted : ∀ name, ¬ ShownIndex "public" (name, ["id", "timestamp"]) := by
    rintro name (hcols | hfound)
    · exact absurd (hcols "timestamp" (by simp)) (by decide +kernel)
    · rw [hschema] at hfound
      cases hfound
  refine ⟨hplan, hplain, hplain.tableColumns_nodup, ?_⟩
  rw [PhysicalTable.introspect_of_none
    (createdTable_baseReason hplan hplain hplain.tableColumns_nodup)]
  refine ⟨?_, rfl⟩
  rw [catalogEntry_lsis]
  refine forall_mem_map.mpr (forall_mem_map.mpr fun l hl => ?_)
  have hshown := @createdTable_lsi_iff _ _ _ "public" hplan hplain zeroHex_isHex8
    hplain.tableColumns_nodup _ hl
  have hattr : l.2.1 = "timestamp" := congrArg (fun l => l.2.1) (mem_singleton.mp hl)
  rw [hattr] at hshown
  exact Option.isNone_eq_false_iff.mpr (Option.isSome_iff_ne_none.mpr fun hnone =>
    hquoted _ (hshown.mp hnone))

end Rektifier
