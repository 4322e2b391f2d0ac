import Rektifier.UpdateTable

namespace Rektifier

open Fallible List Function

variable {attr table : String} {c : DualWriteCol}

theorem keySchemaAttr_mem {role : String} {gsi : GlobalSecondaryIndex}
    (h : keySchemaAttr role gsi = some attr) :
    attr ∈ gsi.keySchema.map KeySchemaElement.attributeName := by
  obtain ⟨kse, hfind, rfl⟩ := Option.map_eq_some_iff.mp h
  have hmem := mem_of_find?_eq_some hfind
  exact mem_map_of_mem (mem_reverse.mp hmem)

theorem rejectIf_ok {bad : Prop} [Decidable bad] {msg : String} {u : Unit}
    (h : rejectIf bad msg = .ok u) : ¬ bad := by
  unfold rejectIf at h
  split at h
  · cases h
  · assumption

theorem requireHash_ok {gsi : GlobalSecondaryIndex}
    (h : requireHash table gsi = .ok attr) : keySchemaAttr "HASH" gsi = some attr := by
  unfold requireHash at h
  split at h
  · rename_i hattr
    cases h
    exact hattr
  · cases h

theorem lookupKeyAttr_ok {index role : String} {defs : OrderedMap String KeyType}
    {col : String × KeyType} (h : lookupKeyAttr table index role attr defs = .ok col) :
    col.1 = attr ∧ defs.get col.1 = some col.2 := by
  unfold lookupKeyAttr at h
  split at h
  · rename_i hget
    cases h
    exact ⟨rfl, hget⟩
  · cases h

theorem lookupSort_ok {gsi : GlobalSecondaryIndex}
    {defs : OrderedMap String KeyType} {sort : Option (String × KeyType)}
    (h : lookupSort table gsi defs = .ok sort) :
    keySchemaAttr "RANGE" gsi = sort.map Prod.fst ∧
      ∀ c ∈ sort.toList, defs.get c.1 = some c.2 := by
  unfold lookupSort at h
  split at h
  · rename_i attr hattr
    obtain ⟨col, hcol, rfl⟩ := map_ok_iff.mp h
    obtain ⟨rfl, hget⟩ := lookupKeyAttr_ok hcol
    exact ⟨hattr, forall_mem_singleton.mpr hget⟩
  · rename_i hnone
    cases h
    exact ⟨hnone, forall_mem_nil _⟩

/-- An accepted index has a new name and its key from the key schema, with the types the request
defines. -/
theorem validateUpdateTableGsiCreate_ok {basePk : String} {gsi : GlobalSecondaryIndex}
    {ads : Option (List AttributeDefinition)} {baseSk : Option String} {existing : List String}
    {plan : GsiPlan}
    (h : validateUpdateTableGsiCreate table gsi ads basePk baseSk existing = .ok plan) :
    plan.name ∉ existing ∧ plan.name = gsi.indexName ∧
      keySchemaAttr "HASH" gsi = some plan.partition.1 ∧
      keySchemaAttr "RANGE" gsi = plan.sort.map Prod.fst ∧
      ∃ defs, attributeTypes table (ads.getD []) = .ok defs ∧
        ∀ c ∈ plan.partition :: plan.sort.toList, defs.get c.1 = some c.2 := by
  unfold validateUpdateTableGsiCreate at h
  obtain ⟨_, _, h⟩ := bind_ok h
  obtain ⟨_, hnew, h⟩ := bind_ok h
  obtain ⟨_, _, h⟩ := bind_ok h
  obtain ⟨defs, hdefs, h⟩ := bind_ok h
  obtain ⟨hash, hhash, h⟩ := bind_ok h
  obtain ⟨partition, hpartition, h⟩ := bind_ok h
  obtain ⟨sort, hsort, h⟩ := bind_ok h
  obtain ⟨_, _, h⟩ := bind_ok h
  obtain ⟨_, _, h⟩ := bind_ok h
  obtain ⟨_, _, h⟩ := bind_ok h
  cases h
  obtain ⟨rfl, hget⟩ := lookupKeyAttr_ok hpartition
  obtain ⟨hrange, hsort⟩ := lookupSort_ok hsort
  exact ⟨rejectIf_ok hnew, rfl, requireHash_ok hhash, hrange, defs, hdefs,
    forall_mem_cons.mpr ⟨hget, hsort⟩⟩

variable {names : PgNames} {hex8 : String → String} {s s' : TableState} {req : UpdateTableRequest}
  {creates : List GsiSpec} {e : TableEntry} {columns columns' : Columns} {col : String}
  {info : ColumnInfo}
variable {g : GsiSpec} {deletes : List String} {gsi : GlobalSecondaryIndex} {name : String}

theorem validateCreates_mem (h : validateCreates hex8 e req = .ok creates)
    (hg : g ∈ creates) : ∃ gsi ∈ req.creates, ∃ plan,
      validateUpdateTableGsiCreate e.name gsi req.attributeDefinitions e.pkAttr (e.sk.map Prod.fst)
        e.gsis.keys = .ok plan ∧
      g = plannedSpec hex8 e.pgTable plan .dualWrite false (some creatingReason) := by
  obtain ⟨gsi, hgsi, h⟩ := mem_of_mapM_ok h g hg
  obtain ⟨plan, hplan, h⟩ := bind_ok h
  cases h
  exact ⟨gsi, hgsi, plan, hplan, rfl⟩

theorem validateCreates_unserved (h : validateCreates hex8 e req = .ok creates) :
    ∀ g ∈ creates, g.serveable = false := by
  intro g hg
  obtain ⟨_, _, _, _, rfl⟩ := validateCreates_mem h hg
  rfl

theorem validateCreates_new (h : validateCreates hex8 e req = .ok creates)
    (hg : g ∈ creates) : g.mode = .dualWrite ∧ g.name ∉ e.gsis.keys := by
  obtain ⟨gsi, _, plan, hplan, rfl⟩ := validateCreates_mem h hg
  exact ⟨rfl, (validateUpdateTableGsiCreate_ok hplan).1⟩

theorem validateCreates_columns (h : validateCreates hex8 e req = .ok creates)
    (hg : g ∈ creates) (hcol : col ∈ g.columns) :
    ∃ gsi ∈ req.creates, col ∈ gsi.keySchema.map KeySchemaElement.attributeName := by
  obtain ⟨gsi, hgsi, plan, hplan, rfl⟩ := validateCreates_mem h hg
  obtain ⟨_, _, hhash, hrange, _⟩ := validateUpdateTableGsiCreate_ok hplan
  refine ⟨gsi, hgsi, ?_⟩
  rcases hs : plan.sort with _ | sort
  · have hcol : col = plan.partition.1 := by
      simpa [GsiSpec.columns, GsiSpec.cols, plannedSpec, hs] using hcol
    exact keySchemaAttr_mem (hcol ▸ hhash)
  · have hcol : col = plan.partition.1 ∨ col = sort.1 := by
      simpa [GsiSpec.columns, GsiSpec.cols, plannedSpec, hs] using hcol
    rcases hcol with rfl | rfl
    · exact keySchemaAttr_mem hhash
    · rw [hs] at hrange
      exact keySchemaAttr_mem hrange

/-- What was created, the merged indexes, and the columns left. -/
theorem updateTable_ok (h : updateTable names hex8 s req = .ok (s', creates)) :
    validateCreates hex8 s.entry req = .ok creates ∧
      s'.entry = { s.entry with gsis := mergedGsis s.entry req.deletes creates } ∧
      creates.foldlM (fun columns g => addColumns names g columns)
        (dropDeleted s.entry req.deletes s.columns) = some s'.columns := by
  unfold updateTable at h
  obtain ⟨_, _, h⟩ := bind_ok h
  obtain ⟨creates', hcreates, h⟩ := bind_ok h
  split at h
  · rename_i columns hcolumns
    cases h
    exact ⟨hcreates, rfl, hcolumns⟩
  · cases h

theorem isMode_of_mem_filter {mode : GsiMode}
    (h : name ∈ deletes.filter fun name => (e.gsis.get name).any fun g => g.mode = mode) :
    name ∈ deletes ∧ ∃ g, e.gsis.get name = some g ∧ g.mode = mode := by
  obtain ⟨hmem, hany⟩ := mem_filter.mp h
  refine ⟨hmem, ?_⟩
  rcases hget : e.gsis.get name with _ | g
  · rw [hget] at hany
    cases hany
  · rw [hget] at hany
    exact ⟨g, rfl, by simpa using hany⟩

theorem mem_marked
    (hget : e.gsis.get name = some g) (hdel : name ∈ deletes) (hdual : g.mode = .dualWrite) :
    (name, { g with serveable := false, unserveableReason := some "GSI removal in progress" }) ∈
      (deletes.filter fun name => (e.gsis.get name).any fun g => g.mode = .dualWrite).filterMap
        fun name => (e.gsis.get name).map fun g => (name, { g with
          serveable := false, unserveableReason := some "GSI removal in progress" }) := by
  refine mem_filterMap.mpr ⟨name, mem_filter.mpr ⟨hdel, ?_⟩, ?_⟩
  · rw [hget]
    simp [hdual]
  · rw [hget]
    rfl

theorem not_mem_created (hget : e.gsis.get name = some g)
    (hnew : ∀ g' ∈ creates, g'.name ∉ e.gsis.keys) :
    name ∉ (creates.map fun g => (g.name, g)).map Prod.fst := by
  intro hmem
  obtain ⟨_, hentry, rfl⟩ := mem_map.mp hmem
  obtain ⟨g', hg', rfl⟩ := mem_map.mp hentry
  exact hnew g' hg' (OrderedMap.mem_keys_of_get hget)

/-- A created index, or one there before with the same key and mode that is no deleted Generated
one. -/
theorem mergedGsis_get (h : (mergedGsis e deletes creates).get name = some g) :
    g ∈ creates ∨ ∃ g₀, e.gsis.get name = some g₀ ∧ g.mode = g₀.mode ∧ g.columns = g₀.columns ∧
      (g.mode = .generated → name ∉ deletes) := by
  rcases OrderedMap.get_insertAll_cases h with hnew | ⟨_, h⟩
  · obtain ⟨g', hg', heq⟩ := mem_map.mp hnew
    cases heq
    exact .inl hg'
  right
  rcases OrderedMap.get_insertAll_cases h with hmarked | ⟨_, h⟩
  · obtain ⟨name', hname', heq⟩ := mem_filterMap.mp hmarked
    obtain ⟨_, g₀, hget, hmode⟩ := isMode_of_mem_filter hname'
    rw [hget] at heq
    cases heq
    refine ⟨g₀, hget, rfl, rfl, fun hgen => ?_⟩
    have hdual : g₀.mode = .generated := hgen
    rw [hmode] at hdual
    cases hdual
  · obtain ⟨hkept, hget⟩ := OrderedMap.get_eraseAll_eq_some h
    refine ⟨g, hget, rfl, rfl, fun hgen hdel => hkept ?_⟩
    exact mem_filter.mpr ⟨hdel, by simp [hget, hgen]⟩

theorem mergedGsis_keeps (hget : e.gsis.get name = some g) (hkept : name ∉ deletes)
    (hnew : ∀ g' ∈ creates, g'.name ∉ e.gsis.keys) :
    (mergedGsis e deletes creates).get name = some g := by
  unfold mergedGsis
  rw [OrderedMap.get_insertAll_of_not_mem (not_mem_created hget hnew), OrderedMap.get_insertAll_of_not_mem,
    OrderedMap.get_eraseAll_of_not_mem, hget]
  · exact fun hmem => hkept (mem_filter.mp hmem).1
  · intro hmem
    obtain ⟨_, hentry, rfl⟩ := mem_map.mp hmem
    obtain ⟨name', hname', heq⟩ := mem_filterMap.mp hentry
    obtain ⟨g', _, rfl⟩ := Option.map_eq_some_iff.mp heq
    exact hkept (isMode_of_mem_filter hname').1

theorem addColumn_keeps (h : addColumn names columns c = some columns')
    (hcol : columns col = some info) : columns' col = some info := by
  obtain ⟨name, _, h⟩ := Option.bind_eq_some_iff.mp h
  split at h
  · cases h
    exact hcol
  · rename_i habsent
    cases h
    have hne : col ≠ name := by
      rintro rfl
      simp [hcol] at habsent
    rw [update_of_ne hne, hcol]

theorem addAll_keeps {cols : List DualWriteCol}
    (h : cols.foldlM (addColumn names) columns = some columns') (hcol : columns col = some info) :
    columns' col = some info :=
  foldlM_preserves (fun columns : Columns => columns col = some info)
    (fun _ _ _ hstep hbefore => addColumn_keeps hstep hbefore) h hcol

theorem addColumn_from (h : addColumn names columns c = some columns')
    (hcol : columns' col = some info) : columns col = some info ∨
      names.unquoted c.col = some col ∧ info = ⟨c.keyType.columnType, false⟩ := by
  obtain ⟨name, hname, h⟩ := Option.bind_eq_some_iff.mp h
  split at h
  · cases h
    exact .inl hcol
  · cases h
    by_cases heq : col = name
    · subst heq
      rw [update_self] at hcol
      exact .inr ⟨hname, (Option.some.inj hcol).symm⟩
    · rw [update_of_ne heq] at hcol
      exact .inl hcol

theorem addColumn_generated (h : addColumn names columns c = some columns')
    (hcol : columns' col = some info) (hgen : info.isGenerated) :
    columns col = some info := by
  rcases addColumn_from h hcol with hbefore | ⟨_, rfl⟩
  · exact hbefore
  · cases hgen

theorem addColumns_generated (h : addColumns names g columns = some columns')
    (hcol : columns' col = some info) (hgen : info.isGenerated) :
    columns col = some info := by
  unfold addColumns at h
  refine foldlM_reflects (fun columns : Columns => columns col = some info) ?_ h hcol
  exact fun _ _ _ hstep hafter => addColumn_generated hstep hafter hgen

theorem dropUnreferenced_some (h : dropUnreferenced e name g columns col = some info) :
    columns col = some info ∧ (col ∈ g.columns → col ∈ e.referencedColumns name) := by
  unfold dropUnreferenced at h
  generalize g.columns = cols at h ⊢
  induction cols generalizing columns with
  | nil => exact ⟨h, by simp⟩
  | cons c cols ih =>
    rw [foldl_cons] at h
    obtain ⟨hstep, hrest⟩ := ih h
    split at hstep
    · rename_i href
      refine ⟨hstep, fun hmem => ?_⟩
      rcases mem_cons.mp hmem with rfl | hmem
      · exact href
      · exact hrest hmem
    · have hne : col ≠ c := by
        rintro rfl
        rw [update_self] at hstep
        cases hstep
      rw [update_of_ne hne] at hstep
      exact ⟨hstep, fun hmem => hrest ((mem_cons.mp hmem).resolve_left hne)⟩

/-- No deleted Generated index takes the column with it. -/
def TableEntry.KeepsColumn (e : TableEntry) (deletes : List String) (col : String) : Prop :=
  ∀ name ∈ deletes, ∀ g, e.gsis.get name = some g → g.mode = .generated → col ∈ g.columns →
    col ∈ e.referencedColumns name

theorem dropDeleted_some (h : dropDeleted e deletes columns col = some info) :
    columns col = some info ∧ e.KeepsColumn deletes col := by
  unfold dropDeleted at h
  induction deletes generalizing columns with
  | nil => exact ⟨h, by simp [TableEntry.KeepsColumn]⟩
  | cons name deletes ih =>
    rw [foldl_cons] at h
    obtain ⟨hstep, hrest⟩ := ih h
    rcases hget : e.gsis.get name with _ | g
    · simp only [hget] at hstep
      refine ⟨hstep, fun name' hname' g' hget' => ?_⟩
      rcases mem_cons.mp hname' with rfl | hname'
      · rw [hget] at hget'
        cases hget'
      · exact hrest name' hname' g' hget'
    rcases hmode : g.mode with _ | _
    · simp only [hget, hmode] at hstep
      obtain ⟨hstep, href⟩ := dropUnreferenced_some hstep
      refine ⟨hstep, fun name' hname' g' hget' hgen hcol => ?_⟩
      rcases mem_cons.mp hname' with rfl | hname'
      · cases hget.symm.trans hget'
        exact href hcol
      · exact hrest name' hname' g' hget' hgen hcol
    · simp only [hget, hmode] at hstep
      refine ⟨hstep, fun name' hname' g' hget' hgen hcol => ?_⟩
      rcases mem_cons.mp hname' with rfl | hname'
      · cases hget.symm.trans hget'
        rw [hmode] at hgen
        cases hgen
      · exact hrest name' hname' g' hget' hgen hcol

theorem setServeable_columns (s : TableState) (name : String) (serveable : Bool)
    (reason : Option String) : (setServeable s name serveable reason).columns = s.columns := by
  unfold setServeable
  split <;> rfl

end Rektifier
