import Rektifier.DualWriteColumns
import Rektifier.UpdateTableSpec
import Rektifier.Runs

namespace Rektifier

open List

variable {name : String} {names : PgNames} {hex8 : String → String} {s s' : TableState}
  {req : UpdateTableRequest} {creates : List GsiSpec} {col : String}

inductive DdlEvent where
  | update (req : UpdateTableRequest)
  | served (name : String) (serveable : Bool) (reason : Option String)
  | removed (name : String)

/-- Accepted requests, and what the workers of DualWrite indexes commit. -/
inductive DdlStep (names : PgNames) (hex8 : String → String) (s : TableState) :
    DdlEvent → TableState → Prop
  | update {req : UpdateTableRequest} {s' : TableState} {creates : List GsiSpec} :
      updateTable names hex8 s req = .ok (s', creates) → DdlStep names hex8 s (.update req) s'
  | served (name : String) (serveable : Bool) (reason : Option String) :
      DdlStep names hex8 s (.served name serveable reason) (setServeable s name serveable reason)
  | removed {name : String} {g : GsiSpec} : s.entry.gsis.get name = some g →
      g.mode = .dualWrite → DdlStep names hex8 s (.removed name) (removeGsi s name)

def TableState.WritesNoGenerated (s : TableState) : Prop :=
  ∀ c ∈ s.entry.toSchema.dualWriteCols, ∀ info, s.columns c.col = some info →
    info.isGenerated = false

/-- A Generated index that the request does not delete has the column. -/
def TableEntry.KeptGenerated (e : TableEntry) (deletes : List String) (col : String) : Prop :=
  ∃ name g, e.gsis.get name = some g ∧ g.mode = .generated ∧ name ∉ deletes ∧ col ∈ g.columns

/-- A DualWrite index has the column, or the request declares one with it. -/
def UpdateTableRequest.Assigns (req : UpdateTableRequest) (e : TableEntry) (col : String) : Prop :=
  e.Uses .dualWrite col ∨
    ∃ gsi ∈ req.creates, col ∈ gsi.keySchema.map KeySchemaElement.attributeName

/-- A generated column of a DualWrite index that outlives the request is still one of a base key, an
LSI or a Generated index. -/
def UpdateTableRequest.Covered (req : UpdateTableRequest) (s : TableState) : Prop :=
  ∀ col info, s.columns col = some info → info.isGenerated = true →
    s.entry.KeepsColumn req.deletes col → req.Assigns s.entry col →
    col ∈ s.entry.fixedCols ∨ s.entry.KeptGenerated req.deletes col

def DdlEvent.Covered : DdlEvent → TableState → Prop
  | .update req, s => req.Covered s
  | _, _ => True

/-- Generated columns of DualWrite indexes are base keys, LSI keys, or those of a Generated
index. -/
def TableState.Accounted (s : TableState) : Prop :=
  ∀ col info, s.columns col = some info → info.isGenerated = true → s.entry.Uses .dualWrite col →
    col ∈ s.entry.fixedCols ∨ s.entry.Uses .generated col

theorem TableState.Accounted.writesNoGenerated (h : s.Accounted) : s.WritesNoGenerated := by
  intro c hc info hinfo
  obtain ⟨huses, hfixed, hgenerated⟩ := dualWriteCols_mem hc
  by_contra hgen
  rcases h c.col info hinfo (by simpa using hgen) huses with hin | hin
  · exact hfixed hin
  · exact hgenerated hin

theorem createEntry_not_uses (plan : CreateTablePlan) (col : String) :
    ¬ (createEntry hex8 plan).Uses .dualWrite col := by
  rintro ⟨name, g, hget, hmode, _⟩
  rcases OrderedMap.get_insertAll_cases hget with hmem | ⟨_, hempty⟩
  · obtain ⟨p, _, heq⟩ := mem_map.mp hmem
    cases heq
    cases hmode
  · cases hempty

theorem createTable_accounted {plan : CreateTablePlan}
    (h : createTable names hex8 plan = some s) : s.Accounted := by
  obtain ⟨columns, _, rfl⟩ := Option.map_eq_some_iff.mp h
  exact fun col _ _ _ huses => absurd huses (createEntry_not_uses plan col)

theorem updateTable_uses_dualWrite (h : updateTable names hex8 s req = .ok (s', creates))
    (huses : s'.entry.Uses .dualWrite col) : req.Assigns s.entry col := by
  obtain ⟨hcreates, hentry, _⟩ := updateTable_ok h
  obtain ⟨name, g, hget, hmode, hcol⟩ := huses
  rw [hentry] at hget
  rcases mergedGsis_get hget with hnew | ⟨g₀, hget₀, hmode₀, hcols, _⟩
  · exact .inr (validateCreates_columns hcreates hnew hcol)
  · exact .inl ⟨name, g₀, hget₀, hmode₀ ▸ hmode, hcols ▸ hcol⟩

theorem updateTable_uses_generated (h : updateTable names hex8 s req = .ok (s', creates))
    (hkept : s.entry.KeptGenerated req.deletes col) : s'.entry.Uses .generated col := by
  obtain ⟨hcreates, hentry, _⟩ := updateTable_ok h
  obtain ⟨name, g, hget, hmode, hname, hcol⟩ := hkept
  refine ⟨name, g, ?_, hmode, hcol⟩
  rw [hentry]
  exact mergedGsis_keeps hget hname fun g' hg' => (validateCreates_new hcreates hg').2

/-- A generated column was there before, and no deleted index took it along. -/
theorem updateTable_generated (h : updateTable names hex8 s req = .ok (s', creates))
    {info : ColumnInfo} (hcol : s'.columns col = some info) (hgen : info.isGenerated) :
    s.columns col = some info ∧ s.entry.KeepsColumn req.deletes col := by
  obtain ⟨_, _, hcolumns⟩ := updateTable_ok h
  have hdropped : dropDeleted s.entry req.deletes s.columns col = some info := by
    refine Fallible.foldlM_reflects (fun columns : Columns => columns col = some info) ?_
      hcolumns hcol
    exact fun _ _ _ hstep hafter => addColumns_generated hstep hafter hgen
  exact dropDeleted_some hdropped

theorem updateTable_accounted (h : updateTable names hex8 s req = .ok (s', creates))
    (hcovered : req.Covered s) : s'.Accounted := by
  intro col info hcol hgen huses
  obtain ⟨hbefore, hkeeps⟩ := updateTable_generated h hcol hgen
  have hassigns := updateTable_uses_dualWrite h huses
  rcases hcovered col info hbefore hgen hkeeps hassigns with hfixed | hkept
  · left
    obtain ⟨_, hentry, _⟩ := updateTable_ok h
    rw [hentry]
    exact hfixed
  · exact .inr (updateTable_uses_generated h hkept)

theorem setServeable_uses {serveable : Bool} {reason : Option String}
    {mode : GsiMode} :
    (setServeable s name serveable reason).entry.Uses mode col ↔ s.entry.Uses mode col := by
  unfold setServeable
  split
  · rename_i g hg
    constructor
    · rintro ⟨name', g', hget, hmode, hcol⟩
      rcases OrderedMap.get_insert_eq_some hget with ⟨rfl, rfl⟩ | ⟨_, hget⟩
      · exact ⟨name', g, hg, hmode, hcol⟩
      · exact ⟨name', g', hget, hmode, hcol⟩
    · rintro ⟨name', g', hget, hmode, hcol⟩
      by_cases heq : name' = name
      · subst heq
        cases hg.symm.trans hget
        exact ⟨name', _, Entries.get_insert_self _ _ _, hmode, hcol⟩
      · exact ⟨name', g', (Entries.get_insert_of_ne heq _ _).trans hget, hmode, hcol⟩
  · exact Iff.rfl

theorem setServeable_accounted {serveable : Bool} {reason : Option String}
    (h : s.Accounted) : (setServeable s name serveable reason).Accounted := by
  intro col info hcol hgen huses
  rw [setServeable_uses] at huses ⊢
  have hsame : (setServeable s name serveable reason).columns = s.columns ∧
      (setServeable s name serveable reason).entry.fixedCols = s.entry.fixedCols := by
    unfold setServeable
    split
    · exact ⟨rfl, rfl⟩
    · exact ⟨rfl, rfl⟩
  rw [hsame.1] at hcol
  rw [hsame.2]
  exact h col info hcol hgen huses

theorem removeGsi_accounted {g : GsiSpec} (hg : s.entry.gsis.get name = some g)
    (hdual : g.mode = .dualWrite) (h : s.Accounted) : (removeGsi s name).Accounted := by
  simp only [removeGsi, hg]
  rintro col info hcol hgen ⟨name', g', hget, hmode, hcol'⟩
  have hbefore := (dropUnreferenced_some hcol).1
  have hget' := (OrderedMap.get_erase_eq_some hget).2
  refine (h col info hbefore hgen ⟨name', g', hget', hmode, hcol'⟩).imp id ?_
  rintro ⟨name'', g'', hget'', hmode'', hcol''⟩
  have hne : name'' ≠ name := by
    rintro rfl
    cases hg.symm.trans hget''
    rw [hdual] at hmode''
    cases hmode''
  exact ⟨name'', g'', (Entries.get_erase_of_ne hne _).trans hget'', hmode'', hcol''⟩

theorem DdlStep.accounted {event : DdlEvent} (hstep : DdlStep names hex8 s event s')
    (hcovered : event.Covered s) (h : s.Accounted) : s'.Accounted := by
  cases hstep with
  | update hok => exact updateTable_accounted hok hcovered
  | served => exact setServeable_accounted h
  | removed hg hdual => exact removeGsi_accounted hg hdual h

/-- From CreateTable on, writes never assign a generated column if every request leaves the
generated columns of DualWrite indexes accounted for. -/
theorem covered_run_writes_no_generated {plan : CreateTablePlan}
    {trace : List (TableState × DdlEvent)} (hcreate : createTable names hex8 plan = some s)
    (hrun : Run (DdlStep names hex8) s trace s') (hcovered : ∀ e ∈ trace, e.2.Covered e.1) :
    s'.WritesNoGenerated := by
  have haccounted := hrun.invariant TableState.Accounted
    (fun s event s' hstep hmeets hinv => hstep.accounted hmeets hinv) hcovered
    (createTable_accounted hcreate)
  exact haccounted.writesNoGenerated

def createKind : UpdateTableRequest :=
  ⟨[⟨"by-kind", [⟨"kind", "HASH"⟩], some "ALL"⟩], [], some [⟨"kind", "S"⟩]⟩

def createSecondTag : UpdateTableRequest :=
  ⟨[⟨"by-tag-2", [⟨"tag", "HASH"⟩], some "ALL"⟩], [], some [⟨"tag", "S"⟩]⟩

def deleteFirstTag : UpdateTableRequest := ⟨[], ["by-tag"], none⟩

theorem createKind_covered : createKind.Covered taggedTable := by
  rintro col info hcol _ _ (huses | ⟨gsi, hgsi, hkey⟩)
  · exact absurd huses (createEntry_not_uses taggedPlan col)
  · rw [mem_singleton.mp hgsi] at hkey
    rw [mem_singleton.mp hkey] at hcol
    cases hcol

theorem covered_run_writes_no_generated_kind : ∃ s,
    createTable plainNames id taggedPlan = some taggedTable ∧
    Run (DdlStep plainNames id) taggedTable [(taggedTable, .update createKind)] s ∧
    s.entry.toSchema.dualWriteCols = [⟨"kind", "kind", .s⟩] ∧ s.WritesNoGenerated := by
  have hrun : Run (DdlStep plainNames id) taggedTable [(taggedTable, .update createKind)] _ :=
    .cons (.update rfl) (.nil _)
  have hcreate : createTable plainNames id taggedPlan = some taggedTable := rfl
  refine ⟨_, hcreate, hrun, by decide, ?_⟩
  refine covered_run_writes_no_generated hcreate hrun ?_
  intro e he
  rw [mem_singleton.mp he]
  exact createKind_covered

/-- A second index on `tag` keeps the column when the Generated one goes, and writes then assign
it. -/
theorem deleted_gsi_leaves_generated_column : ∃ trace s,
    createTable plainNames id taggedPlan = some taggedTable ∧
    Run (DdlStep plainNames id) taggedTable trace s ∧
    trace.map Prod.snd = [.update createSecondTag, .update deleteFirstTag] ∧
    s.entry.toSchema.dualWriteCols = [⟨"tag", "tag", .s⟩] ∧
    s.columns "tag" = some ⟨.text, true⟩ := by
  refine ⟨_, _, rfl, .cons (.update rfl) (.cons (.update rfl) (.nil _)), rfl, ?_, ?_⟩
  · decide
  · rfl

end Rektifier
