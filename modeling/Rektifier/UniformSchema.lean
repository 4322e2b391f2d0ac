import Rektifier.EmittedColumns
import Rektifier.StoredSchema

namespace Rektifier

open Fallible List

variable {deletes : List String} {g : GsiSpec} {names : PgNames} {hex8 : String → String}

/-- The key columns of an index with their declared types. -/
def GsiSpec.keys (g : GsiSpec) : List (String × KeyType) := g.cols.map fun c => (c.col, c.keyType)

def TableEntry.fixedKeys (e : TableEntry) : List (String × KeyType) :=
  (e.pkAttr, e.pkType) :: e.sk.toList ++ e.lsis.map fun l => (l.sortPgCol, l.sortType)

def StoredTable.keys (s : StoredTable) : List (String × KeyType) :=
  s.entry.fixedKeys ++ s.specs.flatMap GsiSpec.keys

/-- No two indexes have one name, and all keys in a column have its type. -/
structure StoredTable.Uniform (names : PgNames) (s : StoredTable) : Prop where
  indexNames : (s.entry.lsis.map LsiSchema.name ++ s.specs.map GsiSpec.name).Nodup
  keyTypes : ∀ k ∈ s.keys, ∀ k' ∈ s.keys, ∀ col, names.unquoted k.1 = some col →
    names.unquoted k'.1 = some col → k.2 = k'.2
  columnTypes : ∀ k ∈ s.keys, ∀ col info, names.unquoted k.1 = some col →
    s.columns col = some info → info.dataType = k.2.columnType

/-- CreateTable, with the row it writes. -/
def StoredTable.CreatedBy (names : PgNames) (hex8 : String → String) (plan : CreateTablePlan)
    (s : StoredTable) : Prop :=
  createTable names hex8 plan = some s.toTableState ∧
    s.specs = plan.gsis.map fun g =>
      plannedSpec hex8 (sanitizePgTableName hex8 plan.tableName) g .generated true none

/-- No LSI has the name of a GSI. -/
def CreateTableRequest.IndexesApart (req : CreateTableRequest) : Prop :=
  ∀ lsi ∈ req.lsis, ∀ gsi ∈ req.gsis, lsi.indexName ≠ gsi.indexName

/-- A key attribute of a created index, with its type. -/
def UpdateTableRequest.DeclaresAs (req : UpdateTableRequest) (table : String)
    (k : String × KeyType) : Prop :=
  req.Declares k.1 ∧ ∃ defs, attributeTypes table (req.attributeDefinitions.getD []) = .ok defs ∧
    defs.get k.1 = some k.2

/-- A key that outlives the deletes of a request. -/
def TableEntry.KeepsKey (e : TableEntry) (deletes : List String) (k : String × KeyType) : Prop :=
  k ∈ e.fixedKeys ∨
    ∃ name g, e.gsis.get name = some g ∧ (g.mode = .generated → name ∉ deletes) ∧ k ∈ g.keys

/-- The created indexes have names of their own, no LSI's, and declare their keys as the columns
they find and as each other and the keys that stay. -/
structure UpdateTableRequest.Agrees (names : PgNames) (req : UpdateTableRequest) (s : TableState) :
    Prop where
  distinct : (req.creates.map GlobalSecondaryIndex.indexName).Nodup
  lsis : ∀ gsi ∈ req.creates, gsi.indexName ∉ s.entry.lsis.map LsiSchema.name
  columns : ∀ k, req.DeclaresAs s.entry.name k → ∀ col info, names.unquoted k.1 = some col →
    s.columns col = some info → s.entry.KeepsColumn req.deletes col →
      info.dataType = k.2.columnType
  keys : ∀ k, req.DeclaresAs s.entry.name k → ∀ k',
    s.entry.KeepsKey req.deletes k' ∨ req.DeclaresAs s.entry.name k' →
      ∀ col, names.unquoted k.1 = some col → names.unquoted k'.1 = some col → k.2 = k'.2

def StoredEvent.Agrees (names : PgNames) : StoredEvent → TableState → Prop
  | .update req, s => req.Agrees names s
  | _, _ => True

section Columns

variable {columns columns' : Columns} {col : String} {info : ColumnInfo}

theorem addAll_from {cs : List DualWriteCol}
    (h : cs.foldlM (addColumn names) columns = some columns') (hcol : columns' col = some info) :
    columns col = some info ∨
      ∃ c ∈ cs, names.unquoted c.col = some col ∧ info = ⟨c.keyType.columnType, false⟩ := by
  induction cs generalizing columns with
  | nil =>
    cases h
    exact .inl hcol
  | cons c cs ih =>
    rw [foldlM_cons] at h
    obtain ⟨next, hstep, h⟩ := Option.bind_eq_some_iff.mp h
    rcases ih h with hnext | ⟨c', hc', hadded⟩
    · rcases addColumn_from hstep hnext with hbefore | hadded
      · exact .inl hbefore
      · exact .inr ⟨c, mem_cons_self, hadded⟩
    · exact .inr ⟨c', mem_cons_of_mem _ hc', hadded⟩

theorem addColumns_flatMap (creates : List GsiSpec) :
    creates.foldlM (fun columns g => addColumns names g columns) columns
      = (creates.flatMap GsiSpec.cols).foldlM (addColumn names) columns := by
  induction creates generalizing columns with
  | nil => rfl
  | cons g creates ih =>
    rw [foldlM_cons, flatMap_cons, foldlM_append]
    exact bind_congr fun _ => ih

theorem dropDeleted_eq_some_iff {e : TableEntry} :
    dropDeleted e deletes columns col = some info ↔
      columns col = some info ∧ e.KeepsColumn deletes col := by
  refine ⟨dropDeleted_some, fun ⟨hcol, hkeeps⟩ => ?_⟩
  have hsome := dropDeleted_isSome.mpr ⟨Option.isSome_of_eq_some hcol, hkeeps⟩
  obtain ⟨info', hinfo'⟩ := Option.isSome_iff_exists.mp hsome
  rw [hinfo', ← (dropDeleted_some hinfo').1, hcol]

end Columns

section Created

variable {req : CreateTableRequest} {plan : CreateTablePlan} {s : StoredTable}

theorem plannedSpec_keys {pgTable : String} {g : GsiPlan} {mode : GsiMode} {serveable : Bool}
    {reason : Option String} : (plannedSpec hex8 pgTable g mode serveable reason).keys
      = g.partition :: g.sort.toList := by
  rcases hs : g.sort with _ | sort
  · simp [plannedSpec, GsiSpec.keys, GsiSpec.cols, hs]
  · simp [plannedSpec, GsiSpec.keys, GsiSpec.cols, hs]

theorem StoredTable.CreatedBy.mem_keys (h : s.CreatedBy names hex8 plan) {k : String × KeyType} :
    k ∈ s.keys ↔ plan.Key k := by
  obtain ⟨hcreate, hspecs⟩ := h
  obtain ⟨columns, _, hstate⟩ := Option.map_eq_some_iff.mp hcreate
  have hentry : s.entry = createEntry hex8 plan := congrArg TableState.entry hstate.symm
  rw [StoredTable.keys, hspecs, hentry, mem_append, TableEntry.fixedKeys, mem_append,
    flatMap_map, mem_flatMap, CreateTablePlan.Key, or_assoc]
  refine or_congr .rfl (or_congr ?_ ?_)
  · rw [createEntry, map_map]
    exact .rfl
  · simp only [plannedSpec_keys]

theorem createColumns_unquoted {columns : Columns} (h : createColumns names plan = some columns) :
    ∀ c ∈ emittedCols plan, names.unquoted c.1 = some ((names.unquoted c.1).getD "") := by
  have hread : ∀ (cs : List (String × KeyType)) (before : Columns),
      cs.foldlM (createColumn names) before = some columns →
        ∀ c ∈ cs, names.unquoted c.1 = some ((names.unquoted c.1).getD "") := by
    intro cs
    induction cs with
    | nil => exact fun _ _ => forall_mem_nil _
    | cons c cs ih =>
      intro before h
      rw [foldlM_cons] at h
      obtain ⟨next, hstep, h⟩ := Option.bind_eq_some_iff.mp h
      obtain ⟨name, hname, _⟩ := Option.bind_eq_some_iff.mp hstep
      exact forall_mem_cons.mpr ⟨by rw [hname]; rfl, ih next h⟩
  exact hread _ _ h

/-- Each column of a created table has its attribute's type. -/
theorem createColumns_typed {columns : Columns} (h : createColumns names plan = some columns) :
    (∀ c ∈ emittedCols plan, ∀ c' ∈ emittedCols plan, ∀ col, names.unquoted c.1 = some col →
      names.unquoted c'.1 = some col → c = c') ∧
    ∀ c ∈ emittedCols plan, ∀ col, names.unquoted c.1 = some col →
      columns col = some ⟨c.2.columnType, true⟩ := by
  have hname := createColumns_unquoted h
  rw [createColumns_eq] at h
  obtain ⟨hnodup, hnew⟩ := createColumn_foldlM_new
    (g := fun attr => (names.unquoted attr).getD "") hname h
  obtain ⟨columns', hfold, _, htyped⟩ := createColumn_foldlM_ok
    (g := fun attr => (names.unquoted attr).getD "") hname hnodup hnew
  cases h.symm.trans hfold
  refine ⟨fun c hc c' hc' col hcol hcol' => ?_, fun c hc col hcol => ?_⟩
  · refine inj_on_of_nodup_map hnodup hc hc' ?_
    rw [hcol, hcol']
  · have hthere := htyped c hc
    rwa [hcol, Option.getD_some] at hthere

/-- Of a created table only the names of its indexes can clash. -/
theorem createTable_uniform_iff (hreq : validateCreateTable req = .ok plan)
    (h : s.CreatedBy names hex8 plan) : s.Uniform names ↔ req.IndexesApart := by
  have hkey : ∀ k ∈ s.keys, k ∈ emittedCols plan :=
    fun k hk => (mem_emittedCols_iff_key hreq).mpr (h.mem_keys.mp hk)
  obtain ⟨hcreate, hspecs⟩ := h
  obtain ⟨columns, hcolumns, hstate⟩ := Option.map_eq_some_iff.mp hcreate
  have hentry : s.entry = createEntry hex8 plan := congrArg TableState.entry hstate.symm
  have hcols : s.columns = columns := congrArg TableState.columns hstate.symm
  obtain ⟨_, hstructures, hgsis, hlsis⟩ := validateCreateTable_ok hreq
  obtain ⟨hlsiNodup, hgsiNodup⟩ := validateCreateTable_names hreq
  have hlsiNames : s.entry.lsis.map LsiSchema.name = plan.lsis.map Prod.fst := by
    rw [hentry, createEntry, map_map]
    rfl
  have hgsiNames : s.specs.map GsiSpec.name = plan.gsis.map GsiPlan.name := by
    rw [hspecs, map_map]
    rfl
  have hnames : (s.entry.lsis.map LsiSchema.name ++ s.specs.map GsiSpec.name).Nodup ↔
      req.IndexesApart := by
    rw [hlsiNames, hgsiNames, nodup_append, validateLsiStructures_indexNames hlsis,
      validateGsiPlans_names hgsis hstructures] at *
    simp only [hlsiNodup, hgsiNodup, true_and, forall_mem_map]
    exact .rfl
  refine ⟨fun huniform => hnames.mp huniform.indexNames, fun hapart => ⟨hnames.mpr hapart, ?_, ?_⟩⟩
  · intro k hk k' hk' col hcol hcol'
    rw [(createColumns_typed hcolumns).1 k (hkey k hk) k' (hkey k' hk') col hcol hcol']
  · intro k hk col info hcol hinfo
    rw [hcols, (createColumns_typed hcolumns).2 k (hkey k hk) col hcol] at hinfo
    cases hinfo
    rfl

end Created

theorem StoredTable.Uniform.mono {s s' : StoredTable} (h : s.Uniform names)
    (hfixed : s'.entry.fixedKeys = s.entry.fixedKeys) (hlsis : s'.entry.lsis = s.entry.lsis)
    (hnodup : (s'.specs.map GsiSpec.name).Nodup)
    (hspecs : ∀ g ∈ s'.specs, ∃ g₀ ∈ s.specs, g.name = g₀.name ∧ g.keys = g₀.keys)
    (hcolumns : ∀ col info, s'.columns col = some info → s.columns col = some info) :
    s'.Uniform names := by
  have hkeys : ∀ k ∈ s'.keys, k ∈ s.keys := by
    intro k hk
    rw [StoredTable.keys, hfixed] at hk
    rcases mem_append.mp hk with hk | hk
    · exact mem_append_left _ hk
    · obtain ⟨g, hg, hk⟩ := mem_flatMap.mp hk
      obtain ⟨g₀, hg₀, _, hsame⟩ := hspecs g hg
      exact mem_append_right _ (mem_flatMap.mpr ⟨g₀, hg₀, hsame ▸ hk⟩)
  obtain ⟨hlsiNodup, _, hapart⟩ := nodup_append.mp h.indexNames
  refine ⟨?_, fun k hk k' hk' => h.keyTypes k (hkeys k hk) k' (hkeys k' hk'),
    fun k hk col info hcol hinfo => h.columnTypes k (hkeys k hk) col info hcol
      (hcolumns col info hinfo)⟩
  rw [hlsis]
  refine nodup_append.mpr ⟨hlsiNodup, hnodup, fun name hname name' hname' => ?_⟩
  obtain ⟨g, hg, rfl⟩ := mem_map.mp hname'
  obtain ⟨g₀, hg₀, heq, _⟩ := hspecs g hg
  rw [heq]
  exact hapart name hname _ (mem_map_of_mem hg₀)

section Update

variable {s s' : StoredTable} {req : UpdateTableRequest} {creates : List GsiSpec}
  {e : TableEntry} {k : String × KeyType}

theorem GsiSpec.keys_fst (g : GsiSpec) : g.keys.map Prod.fst = g.columns := by
  rw [GsiSpec.keys, GsiSpec.columns, map_map]
  rfl

theorem validateCreates_declaresAs (h : validateCreates hex8 e req = .ok creates) :
    (∃ g ∈ creates, k ∈ g.keys) ↔ req.DeclaresAs e.name k := by
  have htypes : ∀ g ∈ creates, ∃ defs,
      attributeTypes e.name (req.attributeDefinitions.getD []) = .ok defs ∧
        ∀ c ∈ g.keys, defs.get c.1 = some c.2 := by
    intro g hg
    obtain ⟨gsi, _, plan, hplan, rfl⟩ := validateCreates_mem h hg
    rw [plannedSpec_keys]
    exact (validateUpdateTableGsiCreate_ok hplan).2.2.2.2
  constructor
  · rintro ⟨g, hg, hk⟩
    obtain ⟨defs, hdefs, hget⟩ := htypes g hg
    refine ⟨(validateCreates_declares h).mp ⟨g, hg, ?_⟩, defs, hdefs, hget k hk⟩
    rw [← GsiSpec.keys_fst]
    exact mem_map_of_mem hk
  · rintro ⟨hdeclares, defs, hdefs, hget⟩
    obtain ⟨g, hg, hcol⟩ := (validateCreates_declares h).mpr hdeclares
    rw [← GsiSpec.keys_fst] at hcol
    obtain ⟨c, hc, hattr⟩ := mem_map.mp hcol
    obtain ⟨defs', hdefs', hget'⟩ := htypes g hg
    cases hdefs.symm.trans hdefs'
    have hsame := hget' c hc
    rw [hattr, hget] at hsame
    have hkey : c = k := Prod.ext hattr (Option.some.inj hsame).symm
    exact ⟨g, hg, hkey ▸ hc⟩

theorem GsiSpec.markedBy_keys (deletes : List String) (g : GsiSpec) :
    (g.markedBy deletes).keys = g.keys := by
  unfold GsiSpec.markedBy
  split <;> rfl

theorem GsiSpec.staysAfter_iff :
    g.staysAfter deletes ↔ (g.mode = .generated → g.name ∉ deletes) := by
  by_cases hmode : g.mode = .generated <;> simp [GsiSpec.staysAfter, hmode]

theorem mem_mergedSpecs :
    g ∈ mergedSpecs e deletes creates ↔ g ∈ creates ∨ ∃ g₀ ∈ e.gsis.entries.map Prod.snd,
      g₀.staysAfter deletes ∧ g₀.markedBy deletes = g := by
  rw [mergedSpecs, mem_mergeSort, mem_append, or_comm, mem_map]
  simp only [mem_filter, and_assoc]

theorem StoredTable.mem_values (s : StoredTable) :
    g ∈ s.entry.gsis.entries.map Prod.snd ↔ s.entry.gsis.get g.name = some g := by
  constructor
  · intro hg
    obtain ⟨entry, hentry, rfl⟩ := mem_map.mp hg
    have hget : s.entry.gsis.get entry.1 = some entry.2 := OrderedMap.get_of_mem hentry
    have hname := (mem_of_loadGsis (s.loaded ▸ hget)).2
    rwa [hname]
  · exact fun hget => mem_map.mpr ⟨_, Entries.get_eq_some_mem hget, rfl⟩

theorem mem_mergedSpecs_keys (h : validateCreates hex8 s.entry req = .ok creates) :
    k ∈ s.entry.fixedKeys ++ (mergedSpecs s.entry req.deletes creates).flatMap GsiSpec.keys ↔
      s.entry.KeepsKey req.deletes k ∨ req.DeclaresAs s.entry.name k := by
  rw [← validateCreates_declaresAs h, mem_append, mem_flatMap, TableEntry.KeepsKey,
    or_assoc]
  refine or_congr .rfl ?_
  constructor
  · rintro ⟨g, hg, hk⟩
    rcases mem_mergedSpecs.mp hg with hnew | ⟨g₀, hg₀, hstays, rfl⟩
    · exact .inr ⟨g, hnew, hk⟩
    · rw [GsiSpec.markedBy_keys] at hk
      exact .inl ⟨g₀.name, g₀, s.mem_values.mp hg₀, GsiSpec.staysAfter_iff.mp hstays, hk⟩
  · rintro (⟨name, g, hget, hstays, hk⟩ | ⟨g, hg, hk⟩)
    · obtain rfl := (mem_of_loadGsis (s.loaded ▸ hget)).2
      refine ⟨g.markedBy req.deletes, mem_mergedSpecs.mpr (.inr ⟨g, s.mem_values.mpr hget,
        GsiSpec.staysAfter_iff.mpr hstays, rfl⟩), ?_⟩
      rwa [GsiSpec.markedBy_keys]
    · exact ⟨g, mem_mergedSpecs.mpr (.inl hg), hk⟩

theorem mergedSpecs_names (h : validateCreates hex8 s.entry req = .ok creates) :
    ((mergedSpecs s.entry req.deletes creates).map GsiSpec.name).Nodup ↔
      (req.creates.map GlobalSecondaryIndex.indexName).Nodup := by
  have hperm : ((mergedSpecs s.entry req.deletes creates).map GsiSpec.name).Perm
      (((s.entry.gsis.entries.map Prod.snd).filter (GsiSpec.staysAfter req.deletes)).map
        GsiSpec.name ++ creates.map GsiSpec.name) := by
    have hsorted := (mergeSort_perm ((((s.entry.gsis.entries.map Prod.snd).filter
      (GsiSpec.staysAfter req.deletes)).map (GsiSpec.markedBy req.deletes)) ++ creates)
        fun a b => a.name ≤ b.name).map GsiSpec.name
    rw [map_append, map_map] at hsorted
    have hmarked : GsiSpec.name ∘ GsiSpec.markedBy req.deletes = GsiSpec.name :=
      funext (GsiSpec.markedBy_name req.deletes)
    rwa [hmarked] at hsorted
  have hkept : (((s.entry.gsis.entries.map Prod.snd).filter
      (GsiSpec.staysAfter req.deletes)).map GsiSpec.name).Nodup := by
    have hall := loadGsis_nodup s.specs
    rw [← s.loaded] at hall
    exact hall.sublist (filter_sublist.map _)
  rw [hperm.nodup_iff, nodup_append, validateCreates_names h]
  refine ⟨fun hall => hall.2.1, fun hnodup => ⟨hkept, hnodup, ?_⟩⟩
  intro name hname name' hname' heq
  rw [← validateCreates_names h] at hname'
  obtain ⟨g, hg, rfl⟩ := mem_map.mp hname
  obtain ⟨g', hg', rfl⟩ := mem_map.mp hname'
  have hget := s.mem_values.mp (mem_filter.mp hg).1
  rw [heq] at hget
  exact (validateCreates_new h hg').2 (OrderedMap.mem_keys_of_get hget)

/-- Those the deletes leave, and those of the declared keys that were not there. -/
theorem updateTable_column_source {t : TableState}
    (h : updateTable names hex8 s.toTableState req = .ok (t, creates)) {col : String}
    {info : ColumnInfo} :
    (s.columns col = some info → s.entry.KeepsColumn req.deletes col → t.columns col = some info) ∧
    (t.columns col = some info →
      s.columns col = some info ∧ s.entry.KeepsColumn req.deletes col ∨
      ∃ k, req.DeclaresAs s.entry.name k ∧ names.unquoted k.1 = some col ∧
        info.dataType = k.2.columnType) := by
  obtain ⟨hcreates, _, hcolumns⟩ := updateTable_ok h
  rw [addColumns_flatMap] at hcolumns
  refine ⟨fun hcol hkeeps => addAll_keeps hcolumns (dropDeleted_eq_some_iff.mpr ⟨hcol, hkeeps⟩), ?_⟩
  intro hcol
  rcases addAll_from hcolumns hcol with hleft | ⟨c, hc, hname, rfl⟩
  · exact .inl (dropDeleted_eq_some_iff.mp hleft)
  · obtain ⟨g, hg, hc⟩ := mem_flatMap.mp hc
    refine .inr ⟨(c.col, c.keyType), (validateCreates_declaresAs hcreates).mp ⟨g, hg, ?_⟩, hname, rfl⟩
    exact mem_map_of_mem hc

/-- A request keeps the schema uniform exactly if it agrees with it. -/
theorem updateTable_uniform_iff (huniform : s.Uniform names)
    (h : updateTable names hex8 s.toTableState req = .ok (s'.toTableState, creates))
    (hspecs : s'.specs = mergedSpecs s.entry req.deletes creates) :
    s'.Uniform names ↔ req.Agrees names s.toTableState := by
  obtain ⟨hcreates, hentry, _⟩ := updateTable_ok h
  have hlsis : s'.entry.lsis = s.entry.lsis := by rw [hentry]
  have hfixed : s'.entry.fixedKeys = s.entry.fixedKeys := by rw [hentry]; rfl
  have hkeys : ∀ {k}, k ∈ s'.keys ↔
      s.entry.KeepsKey req.deletes k ∨ req.DeclaresAs s.entry.name k := by
    intro k
    rw [StoredTable.keys, hfixed, hspecs, mem_mergedSpecs_keys hcreates]
  have hstays : ∀ {k}, s.entry.KeepsKey req.deletes k → k ∈ s.keys := by
    rintro k (hk | ⟨name, g, hget, _, hk⟩)
    · exact mem_append_left _ hk
    · have hg := (mem_of_loadGsis (s.loaded ▸ hget)).1
      exact mem_append_right _ (mem_flatMap.mpr ⟨g, hg, hk⟩)
  constructor
  · rintro ⟨hnames, htypes, hcols⟩
    rw [hlsis, hspecs] at hnames
    obtain ⟨_, hnodup, hapart⟩ := nodup_append.mp hnames
    refine ⟨(mergedSpecs_names hcreates).mp hnodup, ?_, ?_, ?_⟩
    · intro gsi hgsi hmem
      have hname : gsi.indexName ∈ creates.map GsiSpec.name := by
        rw [validateCreates_names hcreates]
        exact mem_map_of_mem hgsi
      obtain ⟨g, hg, hname⟩ := mem_map.mp hname
      refine hapart _ hmem g.name ?_ hname.symm
      exact mem_map_of_mem (mem_mergedSpecs.mpr (.inl hg))
    · intro k hk col info hcol hinfo hkeeps
      exact hcols k (hkeys.mpr (.inr hk)) col info hcol ((updateTable_column_source h).1 hinfo hkeeps)
    · intro k hk k' hk' col hcol hcol'
      exact htypes k (hkeys.mpr (.inr hk)) k' (hkeys.mpr hk') col hcol hcol'
  · rintro ⟨hdistinct, hnolsi, hcols, hagree⟩
    have htypes : ∀ k ∈ s'.keys, ∀ k' ∈ s'.keys, ∀ col, names.unquoted k.1 = some col →
        names.unquoted k'.1 = some col → k.2 = k'.2 := by
      intro k hk k' hk' col hcol hcol'
      rcases hkeys.mp hk with hkept | hnew
      · rcases hkeys.mp hk' with hkept' | hnew'
        · exact huniform.keyTypes k (hstays hkept) k' (hstays hkept') col hcol hcol'
        · exact (hagree k' hnew' k (.inl hkept) col hcol' hcol).symm
      · exact hagree k hnew k' (hkeys.mp hk') col hcol hcol'
    refine ⟨?_, htypes, ?_⟩
    · rw [hlsis, hspecs]
      obtain ⟨hlsiNodup, _, hapart⟩ := nodup_append.mp huniform.indexNames
      refine nodup_append.mpr ⟨hlsiNodup, (mergedSpecs_names hcreates).mpr hdistinct, ?_⟩
      intro name hname name' hname' heq
      obtain ⟨g, hg, rfl⟩ := mem_map.mp hname'
      rcases mem_mergedSpecs.mp hg with hnew | ⟨g₀, hg₀, _, rfl⟩
      · have hcreated := mem_map_of_mem (f := GsiSpec.name) hnew
        rw [validateCreates_names hcreates] at hcreated
        obtain ⟨gsi, hgsi, hindex⟩ := mem_map.mp hcreated
        exact hnolsi gsi hgsi (hindex ▸ heq ▸ hname)
      · have hbefore := (mem_of_loadGsis (s.loaded ▸ s.mem_values.mp hg₀)).1
        rw [GsiSpec.markedBy_name] at heq
        exact hapart name hname g₀.name (mem_map_of_mem hbefore) heq
    · intro k hk col info hcol hinfo
      rcases (updateTable_column_source h).2 hinfo with ⟨hbefore, hkeeps⟩ | ⟨k', hk', hcol', htype⟩
      · rcases hkeys.mp hk with hkept | hnew
        · exact huniform.columnTypes k (hstays hkept) col info hcol hbefore
        · exact hcols k hnew col info hcol hbefore hkeeps
      · rw [htype, htypes k hk k' (hkeys.mpr (.inr hk')) col hcol hcol']

theorem agrees_of_no_creates (h : req.creates = []) (t : TableState) : req.Agrees names t := by
  have hnone : ∀ k, ¬ req.DeclaresAs t.entry.name k := by
    rintro k ⟨⟨gsi, hgsi, _⟩, _⟩
    rw [h] at hgsi
    cases hgsi
  refine ⟨?_, ?_, fun k hk => absurd hk (hnone k), fun k hk => absurd hk (hnone k)⟩
  · rw [h]
    exact nodup_nil
  · intro gsi hgsi
    rw [h] at hgsi
    cases hgsi

end Update

theorem setSpecServeable_keys (name : String) (serveable : Bool) (reason : Option String)
    (g : GsiSpec) : (setSpecServeable name serveable reason g).keys = g.keys := by
  unfold setSpecServeable
  split <;> rfl

/-- Only requests can fail to keep the schema uniform. -/
theorem StoredStep.uniform_iff {s s' : StoredTable} {event : StoredEvent}
    (h : StoredStep names hex8 s event s') (huniform : s.Uniform names) :
    s'.Uniform names ↔ event.Agrees names s.toTableState := by
  obtain ⟨_, hnodup, _⟩ := nodup_append.mp huniform.indexNames
  cases h with
  | @update req _ creates hupdate hspecs =>
    split at hspecs
    next hnone =>
      obtain ⟨hcreates, hentry, _⟩ := updateTable_ok hupdate
      have hreq : req.creates = [] := by
        have hlength := congrArg List.length (validateCreates_names hcreates)
        rw [hnone.2] at hlength
        simpa using hlength.symm
      refine ⟨fun _ => agrees_of_no_creates hreq _, fun _ => ?_⟩
      refine huniform.mono (by rw [hentry]; rfl) (by rw [hentry]) (by rwa [hspecs]) ?_ ?_
      · rw [hspecs]
        exact fun g hg => ⟨g, hg, rfl, rfl⟩
      · intro col info hcol
        rcases (updateTable_column_source hupdate).2 hcol with ⟨hbefore, _⟩ | ⟨k, ⟨⟨gsi, hgsi, _⟩, _⟩, _⟩
        · exact hbefore
        · rw [hreq] at hgsi
          cases hgsi
    next => exact updateTable_uniform_iff huniform hupdate hspecs
  | @served name serveable reason _ hstate hspecs =>
    refine ⟨fun _ => trivial, fun _ => huniform.mono ?_ ?_ ?_ ?_ ?_⟩
    · rw [hstate]
      unfold setServeable
      split <;> rfl
    · rw [hstate]
      unfold setServeable
      split <;> rfl
    · rw [hspecs, map_map]
      have hnames : GsiSpec.name ∘ setSpecServeable name serveable reason = GsiSpec.name :=
        funext (setSpecServeable_name name serveable reason)
      rwa [hnames]
    · rw [hspecs]
      intro g hg
      obtain ⟨g₀, hg₀, rfl⟩ := mem_map.mp hg
      exact ⟨g₀, hg₀, setSpecServeable_name .., setSpecServeable_keys ..⟩
    · rw [hstate, setServeable_columns]
      exact fun _ _ hcol => hcol
  | @removed name g _ hget _ hstate hspecs =>
    refine ⟨fun _ => trivial, fun _ => huniform.mono ?_ ?_ ?_ ?_ ?_⟩
    · rw [hstate, removeGsi, hget]
      rfl
    · rw [hstate, removeGsi, hget]
    · rw [hspecs]
      exact hnodup.sublist (filter_sublist.map _)
    · rw [hspecs]
      exact fun g hg => ⟨g, (mem_filter.mp hg).1, rfl, rfl⟩
    · rw [hstate, removeGsi, hget]
      exact fun _ _ hcol => (dropUnreferenced_some hcol).1
  | @judged verdict _ hstate hspecs =>
    refine ⟨fun _ => trivial, fun _ => huniform.mono ?_ ?_ ?_ ?_ ?_⟩
    · rw [hstate]
      rfl
    · rw [hstate]
    · rw [hspecs, map_map, s.loaded]
      exact loadGsis_nodup s.specs
    · rw [hspecs]
      intro g hg
      obtain ⟨g₀, hg₀, rfl⟩ := mem_map.mp hg
      exact ⟨g₀, (mem_of_loadGsis (s.loaded ▸ s.mem_values.mp hg₀)).1, rfl, rfl⟩
    · rw [hstate]
      exact fun _ _ hcol => hcol

/-- All schemas of a run from CreateTable are uniform exactly if no LSI shares its name with a GSI
at creation and each UpdateTable agrees with the schema it finds. -/
theorem schemas_uniform_iff {req : CreateTableRequest} {plan : CreateTablePlan} {s t : StoredTable}
    {trace : List (StoredTable × StoredEvent)} (hreq : validateCreateTable req = .ok plan)
    (hcreated : s.CreatedBy names hex8 plan) (hrun : Run (StoredStep names hex8) s trace t) :
    (s.Uniform names ∧ t.Uniform names ∧ ∀ e ∈ trace, e.1.Uniform names) ↔
      req.IndexesApart ∧ ∀ e ∈ trace, e.2.Agrees names e.1.toTableState := by
  rw [← createTable_uniform_iff hreq hcreated]
  refine and_congr_right fun huniform => ?_
  exact hrun.invariant_iff (StoredTable.Uniform names)
    (fun _ _ _ hstep hs => hstep.uniform_iff hs) huniform

def hashTable : StoredTable :=
  ⟨⟨createEntry id (hashPlan "id"), (createColumns plainNames (hashPlan "id")).getD fun _ => none⟩,
    [], rfl⟩

/-- Creates indexes on attributes defined as strings, but `id`. -/
def createRequest (indexes : List (String × List KeySchemaElement)) : UpdateTableRequest where
  creates := indexes.map fun i => ⟨i.1, i.2, some "ALL"⟩
  deletes := []
  attributeDefinitions := some [⟨"tag", "S"⟩, ⟨"id", "N"⟩]

def tagRequest : UpdateTableRequest := createRequest [("by-tag", [⟨"tag", "HASH"⟩])]

theorem tagRequest_agrees : tagRequest.Agrees plainNames hashTable.toTableState := by
  have hkey : ∀ k, tagRequest.DeclaresAs "orders" k → k = ("tag", .s) := by
    rintro ⟨attr, type⟩ ⟨⟨gsi, hgsi, hattr⟩, defs, hdefs, hget⟩
    obtain rfl := mem_singleton.mp hgsi
    obtain rfl : attr = "tag" := mem_singleton.mp hattr
    cases hdefs
    cases hget
    rfl
  refine ⟨by decide, fun _ _ => not_mem_nil, ?_, ?_⟩
  · rintro k hk col info hcol hinfo -
    cases hkey k hk
    cases hcol
    cases hinfo
  · rintro k hk k' (hkept | hnew) col hcol hcol'
    · cases hkey k hk
      rcases hkept with hfixed | ⟨name, g, hget, _⟩
      · cases mem_singleton.mp hfixed
        have hsame : "tag" = "id" := Option.some.inj (hcol.trans hcol'.symm)
        exact absurd hsame (by decide)
      · cases hget
    · rw [hkey k hk, hkey k' hnew]

theorem schemas_uniform_tagged : ∃ t,
    Run (StoredStep plainNames id) hashTable [(hashTable, .update tagRequest)] t ∧
      t.Uniform plainNames := by
  have hupdate : ∃ t creates,
      updateTable plainNames id hashTable.toTableState tagRequest = .ok (t, creates) := ⟨_, _, rfl⟩
  obtain ⟨t, creates, hupdate⟩ := hupdate
  obtain ⟨s, _, _, hstep⟩ := updateTable_stored hupdate
  have hrun : Run (StoredStep plainNames id) hashTable [(hashTable, .update tagRequest)] s :=
    .cons hstep (.nil _)
  have hall := @schemas_uniform_iff plainNames id (hashRequest "id") (hashPlan "id") hashTable s _
    rfl ⟨rfl, rfl⟩ hrun
  exact ⟨s, hrun, (hall.mpr ⟨nofun, forall_mem_singleton.mpr tagRequest_agrees⟩).2.1⟩

def sameNameRequest : CreateTableRequest :=
  { hashRequest "id" with
    keySchema := [⟨"id", "HASH"⟩, ⟨"no", "RANGE"⟩]
    attributeDefinitions := [⟨"id", "S"⟩, ⟨"no", "N"⟩, ⟨"at", "S"⟩]
    localSecondaryIndexes := some [⟨"by-at", [⟨"id", "HASH"⟩, ⟨"at", "RANGE"⟩], none⟩]
    globalSecondaryIndexes := some [⟨"by-at", [⟨"at", "HASH"⟩], none⟩] }

def sameNamePlan : CreateTablePlan :=
  ⟨"orders", "id", .s, some ("no", .n), [("by-at", "at", .s)], [⟨"by-at", ("at", .s), none⟩]⟩

/-- One name for an LSI and a GSI; one name for two GSIs of a request; and a number as a key in the
text column of the base key. -/
theorem clashing_indexes_accepted :
    (validateCreateTable sameNameRequest = .ok sameNamePlan ∧
      ∃ s : StoredTable, s.CreatedBy plainNames id sameNamePlan ∧
        s.entry.lsis.map LsiSchema.name = ["by-at"] ∧ s.specs.map GsiSpec.name = ["by-at"]) ∧
    (∃ s, StoredStep plainNames id hashTable (.update (createRequest
        [("by-tag", [⟨"tag", "HASH"⟩]), ("by-tag", [⟨"tag", "HASH"⟩, ⟨"id", "RANGE"⟩])])) s ∧
      ¬ (s.specs.map GsiSpec.name).Nodup) ∧
    ∃ s, StoredStep plainNames id hashTable (.update (createRequest
        [("tag-id", [⟨"tag", "HASH"⟩, ⟨"id", "RANGE"⟩])])) s ∧
      ("id", .n) ∈ s.keys ∧ s.columns "id" = some ⟨.text, true⟩ := by
  refine ⟨⟨rfl, ⟨⟨createEntry id sameNamePlan,
    (createColumns plainNames sameNamePlan).getD fun _ => none⟩, _, rfl⟩, ⟨rfl, rfl⟩, rfl, rfl⟩, ?_, ?_⟩
  · have hupdate : ∃ t creates, updateTable plainNames id hashTable.toTableState (createRequest
        [("by-tag", [⟨"tag", "HASH"⟩]), ("by-tag", [⟨"tag", "HASH"⟩, ⟨"id", "RANGE"⟩])])
          = .ok (t, creates) ∧ creates ≠ [] := ⟨_, _, rfl, cons_ne_nil _ _⟩
    obtain ⟨t, creates, hupdate, hsome⟩ := hupdate
    obtain ⟨s, _, hspecs, hstep⟩ := updateTable_stored hupdate
    refine ⟨s, hstep, ?_⟩
    rw [hspecs, if_neg fun h => hsome h.2, mergedSpecs_names (updateTable_ok hupdate).1]
    decide
  · have hupdate : ∃ t creates, updateTable plainNames id hashTable.toTableState (createRequest
        [("tag-id", [⟨"tag", "HASH"⟩, ⟨"id", "RANGE"⟩])]) = .ok (t, creates) ∧
          (∃ g ∈ creates, ("id", .n) ∈ g.keys) ∧ t.columns "id" = some ⟨.text, true⟩ :=
      ⟨_, _, rfl, ⟨_, mem_singleton_self _, by decide⟩, rfl⟩
    obtain ⟨t, creates, hupdate, ⟨g, hg, hkey⟩, hcol⟩ := hupdate
    obtain ⟨s, rfl, hspecs, hstep⟩ := updateTable_stored hupdate
    refine ⟨s, hstep, mem_append_right _ (mem_flatMap.mpr ⟨g, ?_, hkey⟩), hcol⟩
    rw [hspecs, if_neg fun h => ne_nil_of_mem hg h.2]
    exact mem_mergedSpecs.mpr (.inl hg)

end Rektifier
