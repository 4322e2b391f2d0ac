import Rektifier.DualWriteInvariant
import Rektifier.PassRuns
import Rektifier.SpecRace

namespace Rektifier

open List Function

variable {table name other : String} {e : TableEntry} {creates : List GsiSpec} {g : GsiSpec}
  {phase : GsiPhase} {error : Option String} {t : TableState}

/-- No DualWrite GSI is stored serveable in another phase than Active. -/
def ServeState.ServesActive (s : ServeState) : Prop :=
  ∀ name g, s.table.entry.gsis.get name = some g → g.mode = .dualWrite → g.serveable = true →
    s.phase name = some .active

/-- What a pass writes serves Active GSIs only. -/
def PassSetsActive (names : PgNames) (hex8 : String → String) (s : ServeState)
    (event : ServeEvent) : Prop :=
  ∀ p s', event = .write p → ServeStep names hex8 s event s' → s'.ServesActive

/-- When a pass writes, every DualWrite GSI of its row that is not Active by then lacked a column or
its index in what was fetched, or the base table was not sound. -/
def MissesInactive (s : ServeState) (event : ServeEvent) : Prop :=
  ∀ p row columns primaryKey indexDefs, event = .write p →
    s.passes p = .introspected row columns primaryKey indexDefs →
    ∀ name g, row.gsis.get name = some g → g.mode = .dualWrite → s.phase name ≠ some .active →
      baseReason row columns primaryKey ≠ none ∨
      (∃ c ∈ g.cols, columns c.col ≠ some ⟨c.keyType.columnType, false⟩) ∨
      ∀ indexDef, indexDefs g.indexName = some indexDef →
        textContains indexDef g.expectedColumns = false

variable {names : PgNames} {hex8 : String → String} {s s' : ServeState} {event : ServeEvent}

/-- A verdict serves a DualWrite GSI exactly if nothing is missing. -/
theorem writeVerdict_servesActive {row : TableEntry} {columns : Columns}
    {primaryKey : List String} {indexDefs : String → Option String} :
    (s.writeVerdict row columns primaryKey indexDefs).ServesActive ↔
      ∀ name g, row.gsis.get name = some g → g.mode = .dualWrite → s.phase name ≠ some .active →
        baseReason row columns primaryKey ≠ none ∨
        (∃ c ∈ g.cols, columns c.col ≠ some ⟨c.keyType.columnType, false⟩) ∨
        ∀ indexDef, indexDefs g.indexName = some indexDef →
          textContains indexDef g.expectedColumns = false := by
  have hget : ∀ name, (s.writeVerdict row columns primaryKey indexDefs).table.entry.gsis.get name
      = (row.gsis.get name).map (reconcileGsi ⟨row, columns⟩ primaryKey indexDefs) :=
    fun name => OrderedMap.get_mapVals _ _ _
  constructor
  · intro h name g hg hmode hphase
    by_contra hsound
    simp only [not_or, not_exists, not_and, not_not, not_forall, Bool.not_eq_false] at hsound
    obtain ⟨hbase, hcols, indexDef, hdef, htext⟩ := hsound
    have hserve : (reconcileGsi ⟨row, columns⟩ primaryKey indexDefs g).serveable :=
      (reconcileGsi_serveable hmode).mpr ⟨hbase, hcols, indexDef, hdef, htext⟩
    refine hphase (h name _ ?_ ((reconcileGsi_keeps _ _ _ g).1.trans hmode) hserve)
    rw [hget, hg]
    rfl
  · intro h name g' hg' hmode hserve
    rw [hget] at hg'
    obtain ⟨g, hg, rfl⟩ := Option.map_eq_some_iff.mp hg'
    rw [(reconcileGsi_keeps _ _ _ g).1] at hmode
    obtain ⟨hbase, hcols, indexDef, hdef, htext⟩ := (reconcileGsi_serveable hmode).mp hserve
    by_contra hphase
    rcases h name g hg hmode hphase with hbad | ⟨c, hc, hbad⟩ | hbad
    · exact hbad hbase
    · exact hbad (hcols c hc)
    · rw [hbad indexDef hdef] at htext
      cases htext

theorem passSetsActive_iff : PassSetsActive names hex8 s event ↔ MissesInactive s event := by
  constructor
  · rintro h p row columns primaryKey indexDefs rfl hpass
    have hset := h p _ rfl (.write hpass)
    exact writeVerdict_servesActive.mp hset
  · rintro h p s' rfl hstep
    cases hstep with
    | write hpass => exact writeVerdict_servesActive.mpr (h p _ _ _ _ rfl hpass)

/-- The other writers leave serveable GSIs Active: no request writes back a stale bit, and a worker
that sets another phase finds the GSI unserved. -/
def OthersKeepActive (s : ServeState) : ServeEvent → Prop
  | .update e req => ∀ name g, e.gsis.get name = some g → g.mode = .dualWrite →
      g.serveable = true → name ∉ req.deletes → s.phase name = some .active
  | .phase id phase _ => phase ≠ .active → ∀ name g, s.table.entry.gsis.get name = some g →
      g.mode = .dualWrite → s.id name = id → g.serveable = false
  | _ => True

theorem gsiId_inj {name' : String} (h : gsiId table name = gsiId table name') :
    name = name' := by
  have hlist := congrArg String.toList h
  simp only [gsiId, String.toList_append] at hlist
  exact String.toList_injective (append_cancel_left hlist)

theorem mergedGsis_serveable {deletes : List String}
    (h : (mergedGsis e deletes creates).get name = some g)
    (hunserved : ∀ g ∈ creates, g.serveable = false) (hserve : g.serveable)
    (hdual : g.mode = .dualWrite) : e.gsis.get name = some g ∧ name ∉ deletes := by
  rcases OrderedMap.get_insertAll_cases h with hnew | ⟨_, h⟩
  · obtain ⟨g', hg', heq⟩ := mem_map.mp hnew
    cases heq
    rw [hunserved g hg'] at hserve
    cases hserve
  rcases OrderedMap.get_insertAll_cases h with hmarked | ⟨hnot, h⟩
  · obtain ⟨_, _, heq⟩ := mem_filterMap.mp hmarked
    obtain ⟨g₀, _, heq⟩ := Option.map_eq_some_iff.mp heq
    cases heq
    cases hserve
  · have hget := (OrderedMap.get_eraseAll_eq_some h).2
    refine ⟨hget, fun hdel => hnot ?_⟩
    exact mem_map_of_mem (mem_marked hget hdel hdual)

theorem startRemovals_of_not_mem {deletes : List String}
    {t : StateTable} (h : name ∉ deletes) :
    startRemovals table e deletes t (gsiId table name) = t (gsiId table name) := by
  unfold startRemovals
  induction deletes generalizing t with
  | nil => rfl
  | cons other deletes ih =>
    rw [mem_cons, not_or] at h
    rw [foldl_cons, ih h.2]
    split
    next => exact StateTable.updatePhase_of_ne _ _ _ _ _ fun heq => h.1 (gsiId_inj heq)
    next => rfl

theorem createAll_of_not_mem {pgTable : String}
    {t : StateTable} (h : ∀ g ∈ creates, g.name ≠ name) :
    creates.foldl (createDualWriteGsiInTx table pgTable) t (gsiId table name)
      = t (gsiId table name) := by
  induction creates generalizing t with
  | nil => rfl
  | cons g creates ih =>
    obtain ⟨hg, hrest⟩ := forall_mem_cons.mp h
    have hne : gsiId table name ≠ gsiId table g.name := fun heq => hg (gsiId_inj heq).symm
    rw [foldl_cons, ih hrest, createDualWriteGsiInTx,
      StateTable.updatePhase_of_ne _ _ _ _ _ hne, StateTable.updatePhase_of_ne _ _ _ _ _ hne,
      StateTable.insertStateRow_apply, declaredRow, if_neg hne.symm, Option.or_none]

theorem afterUpdate_servesActive {req : UpdateTableRequest} {table : TableState}
    (hupdate : updateTable names hex8 ⟨e, s.table.columns⟩ req = .ok (table, creates))
    (hkeep : OthersKeepActive s (.update e req)) :
    (s.afterUpdate e req table creates).ServesActive := by
  obtain ⟨hcreates, hentry, _⟩ := updateTable_ok hupdate
  have hunserved := validateCreates_unserved hcreates
  intro name g hget hdual hserve
  have hgsis : (s.afterUpdate e req table creates).table.entry.gsis
      = mergedGsis e req.deletes creates := by
    change table.entry.gsis = _
    rw [hentry]
  rw [hgsis] at hget
  obtain ⟨hget, hkept⟩ := mergedGsis_serveable hget hunserved hserve hdual
  have hactive := hkeep name g hget hdual hserve hkept
  have hnew : ∀ g ∈ creates, g.name ≠ name := by
    rintro g hg rfl
    exact (validateCreates_new hcreates hg).2 (OrderedMap.mem_keys_of_get hget)
  change (creates.foldl (createDualWriteGsiInTx s.table.entry.name e.pgTable)
    (startRemovals s.table.entry.name e req.deletes s.states)
      (gsiId s.table.entry.name name)).map GsiState.phase = _
  rw [createAll_of_not_mem hnew, startRemovals_of_not_mem hkept]
  exact hactive

theorem updatePhase_phase {id : String}
    (h : s.phase name = some .active) (hother : s.id name = id → phase = .active) :
    (s.updatePhase id phase error).phase name = some .active := by
  by_cases heq : s.id name = id
  · obtain ⟨row, hrow, _⟩ := Option.map_eq_some_iff.mp h
    change (s.states.updatePhase id phase error (s.id name)).map GsiState.phase = _
    rw [heq] at hrow ⊢
    rw [StateTable.updatePhase_self, hrow, hother heq]
    rfl
  · change (s.states.updatePhase id phase error (s.id name)).map GsiState.phase = _
    rw [StateTable.updatePhase_of_ne _ _ _ _ _ heq]
    exact h

theorem setServeable_get_cases {serveable : Bool}
    {reason : Option String}
    (h : (setServeable t name serveable reason).entry.gsis.get other = some g) :
    other = name ∧ g.serveable = serveable ∨ other ≠ name ∧ t.entry.gsis.get other = some g := by
  unfold setServeable at h
  split at h
  next =>
    rcases OrderedMap.get_insert_eq_some h with ⟨rfl, rfl⟩ | hother
    · exact .inl ⟨rfl, rfl⟩
    · exact .inr hother
  next hnone =>
    refine .inr ⟨?_, h⟩
    rintro rfl
    cases hnone.symm.trans h

theorem removeGsi_get
    (h : (removeGsi t name).entry.gsis.get other = some g) :
    other ≠ name ∧ t.entry.gsis.get other = some g := by
  unfold removeGsi at h
  split at h
  next => exact OrderedMap.get_erase_eq_some h
  next hnone =>
    refine ⟨?_, h⟩
    rintro rfl
    cases hnone.symm.trans h

theorem phase_of_states {t : StateTable}
    (hname : s'.table.entry.name = s.table.entry.name) (hstates : s'.states = t) :
    s'.phase name = (t (s.id name)).map GsiState.phase := by
  rw [ServeState.phase, ServeState.id, hname, hstates]
  rfl

theorem phase_of_self {row : GsiState}
    (hrow : s.states (s.id name) = some row) (hname : s'.table.entry.name = s.table.entry.name)
    (hstates : s'.states = s.states.updatePhase (s.id name) phase error) :
    s'.phase name = some phase := by
  rw [phase_of_states hname hstates, StateTable.updatePhase_self, hrow]
  rfl

theorem phase_of_ne
    (hne : other ≠ name) (hname : s'.table.entry.name = s.table.entry.name)
    (hstates : s'.states = s.states.updatePhase (s.id name) phase error) :
    s'.phase other = s.phase other := by
  rw [phase_of_states hname hstates, StateTable.updatePhase_of_ne]
  · rfl
  · exact fun heq => hne (gsiId_inj heq)

theorem setServeable_name {serveable : Bool}
    {reason : Option String} :
    (setServeable t name serveable reason).entry.name = t.entry.name := by
  unfold setServeable
  split
  next => rfl
  next => rfl

theorem removeGsi_name :
    (removeGsi t name).entry.name = t.entry.name := by
  unfold removeGsi
  split
  next => rfl
  next => rfl

theorem ServeStep.servesActive (hstep : ServeStep names hex8 s event s')
    (hmisses : MissesInactive s event) (hothers : OthersKeepActive s event)
    (h : s.ServesActive) : s'.ServesActive := by
  cases hstep with
  | update _ hupdate => exact afterUpdate_servesActive hupdate hothers
  | phase id phase error =>
    intro name g hget hdual hserve
    refine updatePhase_phase (h name g hget hdual hserve) fun hid => ?_
    by_contra hphase
    rw [hothers hphase name g hget hdual hid] at hserve
    cases hserve
  | build index cols =>
    unfold ServeState.beginIndex
    dsimp only
    split
    next => exact h
    next => exact h
  | valid index =>
    unfold ServeState.markValid
    split
    next => exact h
    next => exact h
  | drop | load | fetchColumns | fetchPrimaryKey | fetchIndexes | stop => exact h
  | @promote name row hrow =>
    intro other g hget hdual hserve
    rcases setServeable_get_cases hget with ⟨rfl, _⟩ | ⟨hne, hget⟩
    · exact phase_of_self hrow setServeable_name rfl
    · rw [phase_of_ne hne setServeable_name rfl]
      exact h other g hget hdual hserve
  | demote name error =>
    intro other g hget hdual hserve
    rcases setServeable_get_cases hget with ⟨_, hbit⟩ | ⟨hne, hget⟩
    · rw [hbit] at hserve
      cases hserve
    · rw [phase_of_ne hne setServeable_name rfl]
      exact h other g hget hdual hserve
  | removed name =>
    intro other g hget hdual hserve
    obtain ⟨hne, hget⟩ := removeGsi_get hget
    rw [phase_of_ne hne removeGsi_name rfl]
    exact h other g hget hdual hserve
  | write hpass => exact writeVerdict_servesActive.mpr (hmisses _ _ _ _ _ rfl hpass)

/-- In every run the passes serve Active GSIs only exactly if each writes when what it fetched rules
the others out. If besides the other writers leave serveable GSIs Active, none is ever stored
serveable in another phase. -/
theorem passes_serve_active_iff {s₀ : ServeState} {trace : List (ServeState × ServeEvent)}
    (hstart : s₀.ServesActive) (hrun : Run (ServeStep names hex8) s₀ trace s) :
    ((∀ step ∈ trace, PassSetsActive names hex8 step.1 step.2) ↔
      ∀ step ∈ trace, MissesInactive step.1 step.2) ∧
    ((∀ step ∈ trace, MissesInactive step.1 step.2 ∧ OthersKeepActive step.1 step.2) →
      s.ServesActive) := by
  refine ⟨forall₂_congr fun _ _ => passSetsActive_iff, fun hcond => ?_⟩
  have hkeep : ∀ s event s', ServeStep names hex8 s event s' →
      MissesInactive s event ∧ OthersKeepActive s event → s.ServesActive → s'.ServesActive :=
    fun _ _ _ hstep hmeets h => hstep.servesActive hmeets.1 hmeets.2 h
  exact hrun.invariant ServeState.ServesActive hkeep hcond hstart

theorem createEntry_generated {plan : CreateTablePlan}
    (h : (createEntry hex8 plan).gsis.get name = some g) : g.mode = .generated := by
  rcases OrderedMap.get_insertAll_cases h with hmem | ⟨_, hempty⟩
  · obtain ⟨_, _, heq⟩ := mem_map.mp hmem
    obtain ⟨_, rfl⟩ := Prod.mk.inj heq
    rfl
  · cases hempty

def ServeState.afterPass (s : ServeState) (primaryKey : List String) : ServeState :=
  s.writeVerdict s.table.entry s.table.columns primaryKey
    (s.relations.indexDefs s.table.entry.pgTable)

theorem pass_run {p : Nat} (hidle : s.passes p = .idle) (primaryKey : List String) : ∃ trace,
    Run (ServeStep names hex8) s trace (s.afterPass primaryKey) ∧
    trace.map Prod.snd
      = [.load p, .fetchColumns p, .fetchPrimaryKey p, .fetchIndexes p, .write p] ∧
    ((s.afterPass primaryKey).ServesActive → ∀ step ∈ trace,
      MissesInactive step.1 step.2 ∧ OthersKeepActive step.1 step.2) := by
  let s₁ := s.setPass p (.loaded s.table.entry)
  let s₂ := s₁.setPass p (.hasColumns s.table.entry s.table.columns)
  let s₃ := s₂.setPass p (.hasKey s.table.entry s.table.columns primaryKey)
  let s₄ := s₃.setPass p (.introspected s.table.entry s.table.columns primaryKey
    (s.relations.indexDefs s.table.entry.pgTable))
  have hwrite : ServeStep names hex8 s₄ (.write p) ((s₄.writeVerdict s.table.entry s.table.columns
      primaryKey (s.relations.indexDefs s.table.entry.pgTable)).setPass p .idle) :=
    .write (update_self _ _ _)
  have hlast : (s₄.writeVerdict s.table.entry s.table.columns primaryKey
      (s.relations.indexDefs s.table.entry.pgTable)).setPass p .idle = s.afterPass primaryKey := by
    simp only [s₄, s₃, s₂, s₁, ServeState.afterPass, ServeState.setPass, ServeState.writeVerdict,
      update_idem, ← hidle, update_eq_self]
  rw [hlast] at hwrite
  refine ⟨_, .cons (.load hidle) (.cons (.fetchColumns (update_self _ _ _))
    (.cons (.fetchPrimaryKey primaryKey (update_self _ _ _))
      (.cons (.fetchIndexes (update_self _ _ _)) (.cons hwrite (.nil _))))), rfl, ?_⟩
  intro hactive step hstep
  simp only [mem_cons, not_mem_nil, or_false] at hstep
  rcases hstep with rfl | rfl | rfl | rfl | rfl
  · exact ⟨nofun, trivial⟩
  · exact ⟨nofun, trivial⟩
  · exact ⟨nofun, trivial⟩
  · exact ⟨nofun, trivial⟩
  · refine ⟨?_, trivial⟩
    rintro q row columns key indexDefs hq hpass
    cases hq
    cases (update_self _ _ _).symm.trans hpass
    exact writeVerdict_servesActive.mp hactive

def servedStart : ServeState := ⟨taggedTable, fun _ => none, fun _ => none, fun _ => .idle⟩

theorem servedStart_servesActive : servedStart.ServesActive := by
  intro name g hget hdual
  rw [createEntry_generated hget] at hdual
  cases hdual

def kindTable : TableState :=
  ⟨{ taggedTable.entry with gsis := mergedGsis taggedTable.entry [] [unservedOn "by-kind" "kind"] },
    (addColumns plainNames (unservedOn "by-kind" "kind") taggedTable.columns).getD
      taggedTable.columns⟩

def kindCreated : ServeState :=
  servedStart.afterUpdate taggedTable.entry createKind kindTable [unservedOn "by-kind" "kind"]

theorem kindCreated_step : ServeStep plainNames id servedStart
    (.update taggedTable.entry createKind) kindCreated := .update rfl rfl

/-- A pass over the table before the index is built. -/
theorem passes_serve_active_sample : ∃ trace s, Run (ServeStep plainNames id) servedStart trace s ∧
    trace.map Prod.snd = [.update taggedTable.entry createKind, .load 0, .fetchColumns 0,
      .fetchPrimaryKey 0, .fetchIndexes 0, .write 0] ∧
    (∀ step ∈ trace, PassSetsActive plainNames id step.1 step.2) ∧ s.ServesActive := by
  obtain ⟨trace, hpass, hevents, hmisses⟩ :=
    @pass_run plainNames id kindCreated 0 rfl ["id"]
  have hrun := Run.cons kindCreated_step hpass
  have hafter : (kindCreated.afterPass ["id"]).ServesActive := by
    refine writeVerdict_servesActive.mpr fun name g _ _ _ => .inr (.inr fun indexDef hdef => ?_)
    cases hdef
  have hfirst : MissesInactive servedStart (.update taggedTable.entry createKind) ∧
      OthersKeepActive servedStart (.update taggedTable.entry createKind) := by
    refine ⟨nofun, fun name g hget hdual => ?_⟩
    rw [createEntry_generated hget] at hdual
    cases hdual
  have hcond : ∀ step ∈ (servedStart, .update taggedTable.entry createKind) :: trace,
      MissesInactive step.1 step.2 ∧ OthersKeepActive step.1 step.2 :=
    forall_mem_cons.mpr ⟨hfirst, hmisses hafter⟩
  obtain ⟨hiff, hserves⟩ := passes_serve_active_iff servedStart_servesActive hrun
  refine ⟨_, _, hrun, by rw [map_cons, hevents], ?_, hserves hcond⟩
  exact hiff.mpr fun step hstep => (hcond step hstep).1

def kindBuilding : ServeState :=
  (kindCreated.updatePhase "orders::by-kind" .indexing none).beginIndex plainNames
    "rekt_t_orders_gsi_by_kind_idx" ["kind"]

def kindActive : ServeState :=
  let s := kindBuilding.markValid "rekt_t_orders_gsi_by_kind_idx"
  { s.updatePhase "orders::by-kind" .active none with
    table := setServeable s.table "by-kind" true none }

def deleteKind : UpdateTableRequest := ⟨[], ["by-kind"], none⟩

def kindRemoving : ServeState := kindActive.afterUpdate kindActive.table.entry deleteKind
  ⟨{ kindActive.table.entry with gsis := mergedGsis kindActive.table.entry ["by-kind"] [] },
    kindActive.table.columns⟩ []

/-- A drift check has found a mismatch. -/
def kindDegraded : ServeState :=
  { kindActive.updatePhase "orders::by-kind" .degraded (some "1 mismatches out of 1 samples") with
    table := setServeable kindActive.table "by-kind" false (some "sampled drift detected") }

theorem kindBuilding_run : ∃ trace,
    Run (ServeStep plainNames id) servedStart trace kindBuilding :=
  ⟨_, .cons kindCreated_step (.cons (.phase "orders::by-kind" .indexing none)
    (.cons (.build "rekt_t_orders_gsi_by_kind_idx" ["kind"]) (.nil _)))⟩

theorem kindActive_run : ∃ trace, Run (ServeStep plainNames id) servedStart trace kindActive := by
  obtain ⟨_, hbuilding⟩ := kindBuilding_run
  have hpromote : ServeStep plainNames id (kindBuilding.markValid "rekt_t_orders_gsi_by_kind_idx")
      (.promote "by-kind") kindActive := .promote rfl
  exact ⟨_, (hbuilding.concat (.valid "rekt_t_orders_gsi_by_kind_idx")).concat hpromote⟩

/-- A pass makes each of them serveable. -/
theorem pass_serves_inactive :
    (∃ trace s, Run (ServeStep plainNames id) servedStart trace s ∧
      (trace.map Prod.snd).getLast? = some (.write 0) ∧ s.phase "by-kind" = some .indexing ∧
      (∃ indexDef, s.relations "rekt_t_orders_gsi_by_kind_idx"
        = some (.index "rekt_t_orders" indexDef false)) ∧
      (s.table.entry.gsis.get "by-kind").map GsiSpec.serveable = some true) ∧
    (∃ trace s, Run (ServeStep plainNames id) servedStart trace s ∧
      (trace.map Prod.snd).getLast? = some (.write 0) ∧ s.phase "by-kind" = some .removingIndex ∧
      (s.table.entry.gsis.get "by-kind").map GsiSpec.serveable = some true) ∧
    (∃ trace s, Run (ServeStep plainNames id) servedStart trace s ∧
      (trace.map Prod.snd).getLast? = some (.write 0) ∧ s.phase "by-kind" = some .degraded ∧
      (s.table.entry.gsis.get "by-kind").map GsiSpec.serveable = some true) := by
  obtain ⟨_, hbuilding⟩ := kindBuilding_run
  obtain ⟨_, hactive⟩ := kindActive_run
  have hremoving : ServeStep plainNames id kindActive (.update kindActive.table.entry deleteKind)
      kindRemoving := .update rfl rfl
  have hdegraded : ServeStep plainNames id kindActive (.demote "by-kind" _) kindDegraded :=
    .demote "by-kind" _
  obtain ⟨_, hpass₁, hevents₁, _⟩ := @pass_run plainNames id kindBuilding 0 rfl ["id"]
  obtain ⟨_, hpass₂, hevents₂, _⟩ := @pass_run plainNames id kindRemoving 0 rfl ["id"]
  obtain ⟨_, hpass₃, hevents₃, _⟩ := @pass_run plainNames id kindDegraded 0 rfl ["id"]
  refine ⟨⟨_, _, hbuilding.append hpass₁, ?_, rfl, ⟨_, rfl⟩, by decide +kernel⟩,
    ⟨_, _, (hactive.concat hremoving).append hpass₂, ?_, rfl, by decide +kernel⟩,
    ⟨_, _, (hactive.concat hdegraded).append hpass₃, ?_, rfl, by decide +kernel⟩⟩
  · simp [hevents₁]
  · simp [hevents₂]
  · simp [hevents₃]

end Rektifier
