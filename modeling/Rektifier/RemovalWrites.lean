import Rektifier.ColumnRuns
import Rektifier.DualWriteColumns

namespace Rektifier

open Function

/-- An INSERT or UPDATE with its column list, or a DELETE. -/
inductive RowStatement where
  | upsert
  | delete
deriving DecidableEq

def RowStatement.listed (schema : TableSchema) : RowStatement → List String
  | .upsert => "data" :: schema.dualWriteCols.map DualWriteCol.col
  | .delete => []

/-- A statement that assigns a missing column is refused. -/
def missingColumn (columns : Columns) (listed : List String) : Option PgError :=
  (listed.find? fun col => (columns col).isNone).map .undefinedColumn

/-- A write goes by the cached schema from its start on. -/
inductive WriterPhase where
  | idle
  | started (schema : TableSchema) (statement : RowStatement)
  | done (error : Option PgError)

structure WritersState where
  specs : SpecsState
  writers : Nat → WriterPhase

inductive WriterEvent where
  | ddl (event : SpecsEvent)
  | start (w : Nat)
  | execute (w : Nat)

def WritersState.setWriter (s : WritersState) (w : Nat) (phase : WriterPhase) : WritersState :=
  { s with writers := update s.writers w phase }

/-- Right after CreateTable, in every server's cache. -/
def WritersState.start (table : TableState) : WritersState :=
  ⟨SpecsState.start table fun _ => table.entry, fun _ => .idle⟩

/-- Writes among the calls, workers and passes of a table. -/
inductive WriterStep (names : PgNames) (hex8 : String → String) :
    WritersState → WriterEvent → WritersState → Prop
  | ddl {s : WritersState} {event : SpecsEvent} {specs : SpecsState} :
      SpecsStep names hex8 s.specs event specs →
      WriterStep names hex8 s (.ddl event) { s with specs := specs }
  | start {s : WritersState} {w : Nat} (server : ServerId) (statement : RowStatement) :
      s.writers w = .idle →
      WriterStep names hex8 s (.start w)
        (s.setWriter w (.started (s.specs.cache server).toSchema statement))
  | execute {s : WritersState} {w : Nat} {schema : TableSchema} {statement : RowStatement} :
      s.writers w = .started schema statement →
      WriterStep names hex8 s (.execute w)
        (s.setWriter w (.done (missingColumn s.specs.table.columns (statement.listed schema))))

/-- No write is refused for a column that is gone. -/
def FindsColumns (s : WritersState) : WriterEvent → Prop
  | .execute w => ∀ schema statement, s.writers w = .started schema statement →
      missingColumn s.specs.table.columns (statement.listed schema) = none
  | _ => True

/-- The removal's last transaction, or an UpdateTable that deletes a Generated GSI. -/
def SpecsState.Drops (s : SpecsState) (col : String) : SpecsEvent → Prop
  | .commit c => ∃ e req, s.updates c = .prepared e req ∧ ¬ e.KeepsColumn req.deletes col
  | .remove name => ∃ g, s.table.entry.gsis.get name = some g ∧ col ∈ g.columns ∧
      col ∉ s.table.entry.referencedColumns name
  | _ => False

def SpecsState.Adds (s : SpecsState) (col : String) : SpecsEvent → Prop
  | .commit c => ∃ e req, s.updates c = .prepared e req ∧ req.Declares col
  | _ => False

def WritersState.Drops (s : WritersState) (col : String) : WriterEvent → Prop
  | .ddl event => s.specs.Drops col event
  | _ => False

def WritersState.Adds (s : WritersState) (col : String) : WriterEvent → Prop
  | .ddl event => s.specs.Adds col event
  | _ => False

/-- A step has dropped the column, and none has added it since. -/
def Lost (col : String) (trace : List (WritersState × WriterEvent)) : Prop :=
  trace.foldl (fun lost step => (lost ∨ step.1.Drops col step.2) ∧ ¬ step.1.Adds col step.2) False

/-- No column the write's schema fills was dropped before the write is sent. -/
def ListsStanding (before : List (WritersState × WriterEvent)) (s : WritersState) :
    WriterEvent → Prop
  | .execute w => ∀ schema statement, s.writers w = .started schema statement →
      ∀ col ∈ statement.listed schema, ¬ Lost col before
  | _ => True

def SpecsState.PlainCommit (names : PgNames) (s : SpecsState) : SpecsEvent → Prop
  | .commit c => ∀ e req, s.updates c = .prepared e req → req.Plain names
  | _ => True

/-- Requests name key attributes that the DDL texts name as they are. -/
def PlainRequests (names : PgNames) (s : WritersState) : WriterEvent → Prop
  | .ddl event => s.specs.PlainCommit names event
  | _ => True

def UpdatePhase.entries : UpdatePhase → List TableEntry
  | .prepared e _ => [e]
  | _ => []

def PassPhase.entries : PassPhase → List TableEntry
  | .loaded _ row => [row]
  | .judged _ row verdict => [row, { row with gsis := verdict }]
  | .written _ e => [e]
  | .idle => []

/-- A GSI has the column: in the store, in the caches, or in the hands of calls and passes. -/
inductive SpecsState.Lists (s : SpecsState) (col : String) : Prop
  | stored : s.table.entry.Indexes col → s.Lists col
  | cached (server : ServerId) : (s.cache server).Indexes col → s.Lists col
  | call (c : Nat) {e : TableEntry} : e ∈ (s.updates c).entries → e.Indexes col → s.Lists col
  | pass (p : Nat) {e : TableEntry} : e ∈ (s.passes p).entries → e.Indexes col → s.Lists col

/-- The columns that a write lists or may come to list. -/
inductive WritersState.Mentions (s : WritersState) : String → Prop
  | item : s.Mentions "data"
  | entry {col : String} : s.specs.Lists col → s.Mentions col
  | write {w : Nat} {schema : TableSchema} {statement : RowStatement} {col : String} :
      s.writers w = .started schema statement → col ∈ statement.listed schema → s.Mentions col

section Steps

variable {names : PgNames} {hex8 : String → String} {s s' : SpecsState} {table : TableState}
  {event : SpecsEvent} {e : TableEntry} {col : String}

theorem missingColumn_eq_none {columns : Columns} {listed : List String} :
    missingColumn columns listed = none ↔ ∀ col ∈ listed, (columns col).isSome := by
  simp [missingColumn, Option.isSome_iff_ne_none]

theorem listed_indexed {statement : RowStatement} (hcol : col ∈ statement.listed e.toSchema) :
    col = "data" ∨ e.Indexes col := by
  cases statement with
  | upsert =>
    rcases List.mem_cons.mp hcol with hdata | hcol
    · exact .inl hdata
    · obtain ⟨c, hc, rfl⟩ := List.mem_map.mp hcol
      obtain ⟨name, g, hget, _, hmem⟩ := (dualWriteCols_mem hc).1
      exact .inr ⟨name, g, hget, hmem⟩
  | delete => cases hcol

theorem removeGsi_indexes {name : String} (h : (removeGsi table name).entry.Indexes col) :
    table.entry.Indexes col := by
  unfold removeGsi at h
  split at h
  next =>
    obtain ⟨other, g, hget, hcol⟩ := h
    exact ⟨other, g, (OrderedMap.get_erase_eq_some hget).2, hcol⟩
  next => exact h

theorem removeGsi_isSome {name : String} : ((removeGsi table name).columns col).isSome ↔
    (table.columns col).isSome ∧ ¬ ∃ g, table.entry.gsis.get name = some g ∧
      col ∈ g.columns ∧ col ∉ table.entry.referencedColumns name := by
  unfold removeGsi
  split
  next g hget =>
    change (dropUnreferenced table.entry name g table.columns col).isSome ↔ _
    rw [dropUnreferenced_apply]
    split
    next hdrop => simp [hget, hdrop]
    next hkeep => simp [hget, hkeep]
  next hget => simp [hget]

theorem SpecsStep.column_iff (hstep : SpecsStep names hex8 s event s')
    (hplain : s.PlainCommit names event) : (s'.table.columns col).isSome ↔
      (s.table.columns col).isSome ∧ ¬ s.Drops col event ∨ s.Adds col event := by
  cases hstep with
  | prepare | fail | load | judge | keep | skip | replace | stop | write =>
    simp [SpecsState.Drops, SpecsState.Adds, SpecsState.setUpdate, SpecsState.setPass,
      SpecsState.afterVerdict, SpecsState.change]
  | promote | demote =>
    simp [SpecsState.Drops, SpecsState.Adds, SpecsState.change, setServeable_columns]
  | remove name =>
    change ((removeGsi s.table name).columns col).isSome ↔ _
    rw [removeGsi_isSome]
    simp [SpecsState.Drops, SpecsState.Adds]
  | @commit c e req table creates hphase hupdate =>
    have hdrops : s.Drops col (.commit c) ↔ ¬ e.KeepsColumn req.deletes col := by
      simp [SpecsState.Drops, hphase]
    have hadds : s.Adds col (.commit c) ↔ req.Declares col := by
      simp [SpecsState.Adds, hphase]
    rw [hdrops, hadds, not_not]
    change ((s.afterUpdate e req table creates).table.columns col).isSome ↔ _
    unfold SpecsState.afterUpdate
    split
    next => exact (updateTable_columns hupdate (hplain e req hphase)).1 col
    next hneeds =>
      -- a request without GSI updates drops and adds nothing
      simp only [UpdateTableRequest.needsSpecUpdate, Bool.or_eq_true, Bool.not_eq_true', not_or,
        Bool.not_eq_false, List.isEmpty_iff] at hneeds
      simp [TableEntry.KeepsColumn, UpdateTableRequest.Declares, hneeds.1, hneeds.2]

namespace SpecsState.Lists

theorem of_setPass {p : Nat} {phase : PassPhase}
    (hnew : ∀ e ∈ phase.entries, e.Indexes col → s.Lists col) (h : (s.setPass p phase).Lists col) :
    s.Lists col := by
  cases h with
  | stored hcol => exact .stored hcol
  | cached server hcol => exact .cached server hcol
  | call c hmem hcol => exact .call c hmem hcol
  | pass q hmem hcol =>
    by_cases hsame : q = p
    · subst hsame
      simp only [setPass, update_self] at hmem
      exact hnew _ hmem hcol
    · simp only [setPass, update_of_ne hsame] at hmem
      exact .pass q hmem hcol

theorem of_setUpdate {c : Nat} {phase : UpdatePhase}
    (hnew : ∀ e ∈ phase.entries, e.Indexes col → s.Lists col)
    (h : (s.setUpdate c phase).Lists col) : s.Lists col := by
  cases h with
  | stored hcol => exact .stored hcol
  | cached server hcol => exact .cached server hcol
  | call d hmem hcol =>
    by_cases hsame : d = c
    · subst hsame
      simp only [setUpdate, update_self] at hmem
      exact hnew _ hmem hcol
    · simp only [setUpdate, update_of_ne hsame] at hmem
      exact .call d hmem hcol
  | pass p hmem hcol => exact .pass p hmem hcol

theorem of_change {changes : List SpecChange} (h : (s.change table changes).Lists col) :
    table.entry.Indexes col ∨ s.Lists col := by
  cases h with
  | stored hcol => exact .inl hcol
  | cached server hcol => exact .inr (.cached server hcol)
  | call c hmem hcol => exact .inr (.call c hmem hcol)
  | pass p hmem hcol => exact .inr (.pass p hmem hcol)

theorem of_cache {server : ServerId} (hnew : e.Indexes col → s.Lists col)
    (h : SpecsState.Lists { s with cache := update s.cache server e } col) :
    s.Lists col := by
  cases h with
  | stored hcol => exact .stored hcol
  | cached other hcol =>
    by_cases hsame : other = server
    · subst hsame
      simp only [update_self] at hcol
      exact hnew hcol
    · simp only [update_of_ne hsame] at hcol
      exact .cached other hcol
  | call c hmem hcol => exact .call c hmem hcol
  | pass p hmem hcol => exact .pass p hmem hcol

end SpecsState.Lists

/-- A GSI's column comes in with a request only. -/
theorem SpecsStep.lists (hstep : SpecsStep names hex8 s event s')
    (hplain : s.PlainCommit names event) (h : s'.Lists col) : s.Lists col ∨ s.Adds col event := by
  have hpass : ∀ {p phase e}, s.passes p = phase → e ∈ phase.entries → e.Indexes col →
      s.Lists col := fun hphase hmem hcol => .pass _ (hphase ▸ hmem) hcol
  cases hstep with
  | prepare server =>
    exact .inl (h.of_setUpdate (List.forall_mem_singleton.mpr (.cached server)))
  | @commit c e req table creates hphase hupdate =>
    have h := h.of_setUpdate (List.forall_mem_nil _)
    unfold SpecsState.afterUpdate at h
    split at h
    next =>
      rcases h.of_change with hafter | hold
      · rcases ((updateTable_columns hupdate (hplain e req hphase)).2 col).mp hafter with
          hnew | ⟨name, g, hget, _, hmem⟩
        · exact .inr ⟨e, req, hphase, hnew⟩
        · have he : e ∈ (s.updates c).entries := hphase ▸ List.mem_singleton_self e
          exact .inl (.call c he ⟨name, g, hget, hmem⟩)
      · exact .inl hold
    next => exact .inl h
  | fail => exact .inl (h.of_setUpdate (List.forall_mem_nil _))
  | promote | demote =>
    exact .inl (h.of_change.elim (fun hcol => .stored (setServeable_sameIndexes.indexes hcol)) id)
  | remove => exact .inl (h.of_change.elim (fun hcol => .stored (removeGsi_indexes hcol)) id)
  | load => exact .inl (h.of_setPass (List.forall_mem_singleton.mpr .stored))
  | @judge p server row primaryKey indexDefs hphase =>
    have hrow : row.Indexes col → s.Lists col := hpass hphase (List.mem_singleton_self row)
    refine .inl (h.of_setPass (List.forall_mem_cons.mpr ⟨hrow, List.forall_mem_singleton.mpr ?_⟩))
    exact fun hcol => hrow ((reconcileGsis_sameKeys ..).indexes hcol)
  | @write p server row verdict hphase =>
    have hverdict : TableEntry.Indexes { row with gsis := verdict } col → s.Lists col :=
      hpass hphase (List.mem_cons_of_mem _ (List.mem_singleton_self _))
    have hchanged := h.of_setPass (List.forall_mem_singleton.mpr fun hcol => .stored hcol)
    exact .inl (hchanged.of_change.elim hverdict id)
  | @keep p _ row _ hphase _ | @skip p _ row hphase =>
    exact .inl (h.of_setPass (List.forall_mem_singleton.mpr (hpass hphase List.mem_cons_self)))
  | @replace p _ e hphase =>
    refine .inl ((h.of_setPass (List.forall_mem_nil _)).of_cache ?_)
    exact hpass hphase (List.mem_singleton_self e)
  | stop => exact .inl (h.of_setPass (List.forall_mem_nil _))

end Steps

section Runs

variable {names : PgNames} {hex8 : String → String} {s s' : WritersState} {table : TableState}
  {event : WriterEvent} {trace : List (WritersState × WriterEvent)} {col : String} {lost : Prop}

theorem WriterStep.mentions (hstep : WriterStep names hex8 s event s')
    (hplain : PlainRequests names s event) (h : s'.Mentions col) :
    s.Mentions col ∨ s.Adds col event := by
  cases hstep with
  | ddl hddl =>
    cases h with
    | item => exact .inl .item
    | entry hlists => exact (hddl.lists hplain hlists).imp_left .entry
    | write hwriter hcol => exact .inl (.write hwriter hcol)
  | @start w server statement _ =>
    cases h with
    | item => exact .inl .item
    | entry hlists => exact .inl (.entry hlists)
    | @write w' _ _ _ hwriter hcol =>
      by_cases hsame : w' = w
      · subst hsame
        cases (update_self ..).symm.trans hwriter
        rcases listed_indexed hcol with rfl | hindexed
        · exact .inl .item
        · exact .inl (.entry (.cached server hindexed))
      · exact .inl (.write ((update_of_ne hsame ..).symm.trans hwriter) hcol)
  | @execute w _ _ _ =>
    cases h with
    | item => exact .inl .item
    | entry hlists => exact .inl (.entry hlists)
    | @write w' _ _ _ hwriter hcol =>
      by_cases hsame : w' = w
      · subst hsame
        cases (update_self ..).symm.trans hwriter
      · exact .inl (.write ((update_of_ne hsame ..).symm.trans hwriter) hcol)

theorem WriterStep.column_iff (hstep : WriterStep names hex8 s event s')
    (hplain : PlainRequests names s event) : (s'.specs.table.columns col).isSome ↔
      (s.specs.table.columns col).isSome ∧ ¬ s.Drops col event ∨ s.Adds col event := by
  cases hstep with
  | ddl hddl => exact hddl.column_iff hplain
  | start | execute => simp [WritersState.Drops, WritersState.Adds, WritersState.setWriter]

/-- A column that a write may list is there or lost, and not both. -/
structure Accounted (col : String) (s : WritersState) (lost : Prop) : Prop where
  mentioned : s.Mentions col → (s.specs.table.columns col).isSome = true ∨ lost
  gone : lost → ¬ (s.specs.table.columns col).isSome = true

theorem WriterStep.accounted (hstep : WriterStep names hex8 s event s')
    (hplain : PlainRequests names s event) (h : Accounted col s lost) :
    Accounted col s' ((lost ∨ s.Drops col event) ∧ ¬ s.Adds col event) := by
  have hiff : (s'.specs.table.columns col).isSome ↔ _ := hstep.column_iff hplain
  constructor
  · intro hmentions
    by_cases hadds : s.Adds col event
    · exact .inl (hiff.mpr (.inr hadds))
    by_cases hdrops : s.Drops col event
    · exact .inr ⟨.inr hdrops, hadds⟩
    rcases h.mentioned ((hstep.mentions hplain hmentions).resolve_right hadds) with hthere | hlost
    · exact .inl (hiff.mpr (.inl ⟨hthere, hdrops⟩))
    · exact .inr ⟨.inl hlost, hadds⟩
  · rintro ⟨hbefore, hadds⟩ hthere
    obtain ⟨hthere, hdrops⟩ := (hiff.mp hthere).resolve_right hadds
    exact h.gone (hbefore.resolve_right hdrops) hthere

theorem run_accounted (hrun : Run (WriterStep names hex8) s trace s')
    (hplain : ∀ step ∈ trace, PlainRequests names step.1 step.2) (h : Accounted col s lost) :
    Accounted col s' (trace.foldl
      (fun lost step => (lost ∨ step.1.Drops col step.2) ∧ ¬ step.1.Adds col step.2) lost) := by
  induction hrun generalizing lost with
  | nil => exact h
  | cons hfirst _ ih =>
    have hnext := hfirst.accounted (hplain _ List.mem_cons_self) h
    exact ih (fun step hstep => hplain step (List.mem_cons_of_mem _ hstep)) hnext

theorem findsColumns_iff {before : List (WritersState × WriterEvent)}
    (h : ∀ col, Accounted col s (Lost col before)) :
    FindsColumns s event ↔ ListsStanding before s event := by
  cases event with
  | ddl | start => exact Iff.rfl
  | execute w =>
    refine forall₃_congr fun schema statement hwriter => ?_
    rw [missingColumn_eq_none]
    refine forall₂_congr fun col hcol => ?_
    refine ⟨fun hthere hlost => (h col).gone hlost hthere, fun hstands => ?_⟩
    exact ((h col).mentioned (.write hwriter hcol)).resolve_right hstands

theorem start_accounted {creq : CreateTableRequest} {plan : CreateTablePlan}
    (hplan : validateCreateTable creq = .ok plan)
    (hkeys : ∀ c ∈ emittedCols plan, PlainKey names c.1)
    (hcreate : createTable names hex8 plan = some table) (col : String) :
    Accounted col (WritersState.start table) False := by
  have hmatch := createTable_columnsMatch hplan hkeys hcreate
  refine ⟨fun hmentions => .inl ?_, False.elim⟩
  cases hmentions with
  | item =>
    obtain ⟨columns, hcolumns, rfl⟩ := Option.map_eq_some_iff.mp hcreate
    exact (createColumns_isSome hkeys hcolumns).mpr (.inl rfl)
  | entry hlists =>
    cases hlists with
    | stored hcol | cached _ hcol => exact ((hmatch col).mp (.inr hcol)).2
    | call _ hmem | pass _ hmem => cases hmem
  | write hwriter => cases hwriter

end Runs

section Samples

variable {names : PgNames} {hex8 : String → String} {s t : SpecsState}

def SpecsState.afterCall (s : SpecsState) (c : Nat) (server : ServerId) (req : UpdateTableRequest)
    (table : TableState) (creates : List GsiSpec) : SpecsState :=
  ((s.setUpdate c (.prepared (s.cache server) req)).afterUpdate (s.cache server) req table
    creates).setUpdate c .returned

def SpecsState.afterPass (s : SpecsState) (server : ServerId) (primaryKey : List String)
    (indexDefs : String → Option String) : SpecsState :=
  let verdict := reconcileGsis s.table primaryKey indexDefs
  { s.afterVerdict s.table.entry verdict with
    cache := update s.cache server { s.table.entry with gsis := verdict } }

theorem afterCall_run {c : Nat} {server : ServerId} {req : UpdateTableRequest}
    {table : TableState} {creates : List GsiSpec} (hidle : s.updates c = .idle)
    (hupdate : updateTable names hex8 ⟨s.cache server, s.table.columns⟩ req
      = .ok (table, creates)) :
    ∃ trace, Run (SpecsStep names hex8) s trace (s.afterCall c server req table creates) ∧
      trace.map Prod.snd = [.prepare c, .commit c] ∧
      (req.Plain names → ∀ step ∈ trace, step.1.PlainCommit names step.2) := by
  let s₁ := s.setUpdate c (.prepared (s.cache server) req)
  have hphase : s₁.updates c = .prepared (s.cache server) req := update_self ..
  refine ⟨[(s, .prepare c), (s₁, .commit c)], .cons (.prepare server req hidle)
    (.cons (.commit hphase hupdate) (.nil _)), rfl, fun hplain => ?_⟩
  refine List.forall_mem_cons.mpr ⟨trivial, List.forall_mem_singleton.mpr ?_⟩
  intro e req' hprepared
  cases hphase.symm.trans hprepared
  exact hplain

theorem afterPass_run {p : Nat} {server : ServerId} (hidle : s.passes p = .idle)
    (primaryKey : List String) (indexDefs : String → Option String) :
    ∃ trace, Run (SpecsStep names hex8) s trace (s.afterPass server primaryKey indexDefs) ∧
      trace.map Prod.snd = [.load p, .judge p, .write p, .replace p] ∧
      ∀ step ∈ trace, step.1.PlainCommit names step.2 := by
  let verdict := reconcileGsis s.table primaryKey indexDefs
  let judged : TableEntry := { s.table.entry with gsis := verdict }
  let s₁ := s.setPass p (.loaded server s.table.entry)
  let s₂ := s₁.setPass p (.judged server s.table.entry verdict)
  let s₃ := (s₂.afterVerdict s.table.entry verdict).setPass p (.written server judged)
  let s₄ := { s₃ with cache := update s.cache server judged }.setPass p .idle
  have hload : SpecsStep names hex8 s (.load p) s₁ := .load server hidle
  have hjudge : SpecsStep names hex8 s₁ (.judge p) s₂ :=
    .judge primaryKey indexDefs (update_self ..)
  have hwrite : SpecsStep names hex8 s₂ (.write p) s₃ := .write (update_self ..)
  have hreplace : SpecsStep names hex8 s₃ (.replace p) s₄ := .replace (update_self ..)
  have hlast : s₄ = s.afterPass server primaryKey indexDefs := by
    simp only [s₄, s₃, s₂, s₁, judged, verdict, SpecsState.afterPass, SpecsState.afterVerdict,
      SpecsState.setPass, SpecsState.change, update_idem, ← hidle, update_eq_self]
  rw [hlast] at hreplace
  refine ⟨[(s, .load p), (s₁, .judge p), (s₂, .write p), (s₃, .replace p)],
    .cons hload (.cons hjudge (.cons hwrite (.cons hreplace (.nil _)))), rfl, ?_⟩
  simp [SpecsState.PlainCommit]

/-- No write is under way. -/
theorem specs_run {trace : List (SpecsState × SpecsEvent)} {writers : Nat → WriterPhase}
    (h : Run (SpecsStep names hex8) s trace t) :
    ∃ trace', Run (WriterStep names hex8) ⟨s, writers⟩ trace' ⟨t, writers⟩ ∧
      trace'.map Prod.snd = (trace.map Prod.snd).map WriterEvent.ddl ∧
      ((∀ step ∈ trace, step.1.PlainCommit names step.2) →
        ∀ step ∈ trace', PlainRequests names step.1 step.2) := by
  have hddl : ∀ s event s', SpecsStep names hex8 s event s' → True →
      WriterStep names hex8 ⟨s, writers⟩ (.ddl event) ⟨s', writers⟩ :=
    fun _ _ _ hstep _ => .ddl hstep
  refine ⟨_, @Run.simulate _ _ _ _ _ (WriterStep names hex8) _ _ _
    (fun s => (⟨s, writers⟩ : WritersState)) WriterEvent.ddl (fun _ => True)
    (fun _ _ _ _ _ => trivial) hddl h trivial, ?_, fun hcounts => ?_⟩
  · rw [List.map_map, List.map_map]
    rfl
  · exact List.forall_mem_map.mpr hcounts

end Samples

/-- `pg_indexes` before the new index is built. -/
def taggedDefs : String → Option String :=
  update (fun _ => none) "rekt_t_orders_gsi_by_tag_idx"
    (some "CREATE INDEX rekt_t_orders_gsi_by_tag_idx ON public.rekt_t_orders USING btree (tag)")

def kindAdded : TableState :=
  ⟨{ taggedTable.entry with
      gsis := taggedTable.entry.gsis.insert "by-kind" (unservedOn "by-kind" "kind") },
    update taggedTable.columns "kind" (some ⟨.text, false⟩)⟩

/-- A pass has put the new GSI in the cache. -/
def kindCached : SpecsState :=
  (taggedSpecs.afterCall 0 0 createByKind kindAdded [unservedOn "by-kind" "kind"]).afterPass 0
    ["id"] taggedDefs

theorem kindCached_run : ∃ trace, Run (SpecsStep plainNames id) taggedSpecs trace kindCached ∧
    trace.map Prod.snd = [.prepare 0, .commit 0, .load 0, .judge 0, .write 0, .replace 0] ∧
    ∀ step ∈ trace, step.1.PlainCommit plainNames step.2 := by
  have hupdate : updateTable plainNames id taggedTable createByKind
      = .ok (kindAdded, [unservedOn "by-kind" "kind"]) := rfl
  obtain ⟨trace₁, hcall, hevents₁, hplain₁⟩ :=
    @afterCall_run plainNames id taggedSpecs 0 0 createByKind _ _ rfl hupdate
  obtain ⟨trace₂, hpass, hevents₂, hplain₂⟩ := @afterPass_run plainNames id
    (taggedSpecs.afterCall 0 0 createByKind kindAdded [unservedOn "by-kind" "kind"]) 0 0 rfl ["id"]
    taggedDefs
  have hplain : createByKind.Plain plainNames := by
    have hdata : ∀ gsi ∈ createByKind.creates, ∀ col ∈ gsi.keyAttrs, col ≠ "data" := by decide
    refine ⟨?_, by decide⟩
    rintro col ⟨gsi, hgsi, hcol⟩
    exact ⟨rfl, hdata gsi hgsi col hcol⟩
  refine ⟨_, hcall.append hpass, ?_, ?_⟩
  · rw [List.map_append, hevents₁, hevents₂]
    rfl
  · exact List.forall_mem_append.mpr ⟨hplain₁ hplain, hplain₂⟩

def kindMarked : SpecsState :=
  kindCached.afterCall 1 0 (deleteTags ["by-kind"]) ⟨{ kindCached.table.entry with
    gsis := mergedGsis (kindCached.cache 0) ["by-kind"] [] }, kindCached.table.columns⟩ []

def kindDeleted : SpecsState := kindMarked.afterPass 0 ["id"] taggedDefs

def kindGone : SpecsState :=
  kindDeleted.change (removeGsi kindDeleted.table "by-kind") [.dropped "by-kind"]

def passEvents : List SpecsEvent := [.load 0, .judge 0, .write 0, .replace 0]

/-- A call creates the GSI and another deletes it, each with its own pass, and then the worker drops
the column. -/
def kindEvents : List SpecsEvent :=
  [.prepare 0, .commit 0] ++ passEvents ++ [.prepare 1, .commit 1] ++ passEvents
    ++ [.remove "by-kind"]

theorem kindGone_run : ∃ trace, Run (SpecsStep plainNames id) taggedSpecs trace kindGone ∧
    trace.map Prod.snd = kindEvents ∧ ∀ step ∈ trace, step.1.PlainCommit plainNames step.2 := by
  obtain ⟨trace₁, hcreate, hevents₁, hplain₁⟩ := kindCached_run
  obtain ⟨trace₂, hcall, hevents₂, hplain₂⟩ :=
    @afterCall_run plainNames id kindCached 1 0 (deleteTags ["by-kind"]) _ _ rfl rfl
  obtain ⟨trace₃, hpass, hevents₃, hplain₃⟩ :=
    @afterPass_run plainNames id kindMarked 0 0 rfl ["id"] taggedDefs
  have hremove : SpecsStep plainNames id kindDeleted (.remove "by-kind") kindGone := .remove _ _
  refine ⟨_, ((hcreate.append hcall).append hpass).concat hremove, ?_, ?_⟩
  · simp only [List.map_append, hevents₁, hevents₂, hevents₃]
    rfl
  · have hplain : (deleteTags ["by-kind"]).Plain plainNames := by
      refine ⟨?_, List.nodup_nil⟩
      rintro col ⟨_, hmem, _⟩
      cases hmem
    simp only [List.forall_mem_append, List.forall_mem_singleton]
    exact ⟨⟨⟨hplain₁, hplain₂ hplain⟩, hplain₃⟩, trivial⟩

def kindForgotten : SpecsState := kindGone.afterPass 0 ["id"] taggedDefs

/-- A write of an item that starts from the cache of server 0, once the rest has happened. -/
def wroteAfter (s : SpecsState) : WritersState :=
  WritersState.setWriter ⟨s, fun _ => .idle⟩ 0
    (.done (missingColumn s.table.columns (RowStatement.upsert.listed (s.cache 0).toSchema)))

theorem wroteAfter_run {trace : List (SpecsState × SpecsEvent)} {s : SpecsState}
    (hrun : Run (SpecsStep plainNames id) taggedSpecs trace s)
    (hplain : ∀ step ∈ trace, step.1.PlainCommit plainNames step.2) : ∃ trace',
    Run (WriterStep plainNames id) (WritersState.start taggedTable) trace' (wroteAfter s) ∧
    trace'.map Prod.snd
      = (trace.map Prod.snd).map WriterEvent.ddl ++ [.start 0, .execute 0] ∧
    ∀ step ∈ trace', PlainRequests plainNames step.1 step.2 := by
  obtain ⟨trace', hspecs, hevents, hplain'⟩ :=
    @specs_run plainNames id _ _ _ (fun _ => .idle) hrun
  let s₁ : WritersState := ⟨s, fun _ => .idle⟩
  let s₂ := s₁.setWriter 0 (.started (s.cache 0).toSchema .upsert)
  have hstart : WriterStep plainNames id s₁ (.start 0) s₂ := .start 0 .upsert rfl
  have hexecute : WriterStep plainNames id s₂ (.execute 0) (wroteAfter s) := by
    have hdone := @WriterStep.execute plainNames id s₂ 0 _ .upsert rfl
    simp only [s₂, WritersState.setWriter, update_idem] at hdone
    exact hdone
  refine ⟨_, (hspecs.concat hstart).concat hexecute, ?_, ?_⟩
  · rw [List.map_append, List.map_append, hevents, List.append_assoc]
    rfl
  · simp only [List.forall_mem_append, List.forall_mem_singleton]
    exact ⟨⟨hplain' hplain, trivial⟩, trivial⟩

end Rektifier
