import Rektifier.StateRows

namespace Rektifier

open List Function

variable {g : GsiSpec} {trace : List (World × WorldEvent)}

def GsiState.declaration (row : GsiState) : Json × String := (row.columnSpecs, row.indexName)

def GsiSpec.declaration (g : GsiSpec) : Json × String := (columnSpecsJson g, g.indexName)

/-- The row a lifecycle reads is the new declaration's and has no cursor. -/
def StateTable.StartsFresh (t : StateTable) (id : String) (g : GsiSpec) : Prop :=
  ∃ row, t id = some row ∧ row.columnSpecs = columnSpecsJson g ∧ row.indexName = g.indexName ∧
    row.lastPkCopied = none

def WorldEvent.declares (id : String) : WorldEvent → List GsiSpec
  | .updateTable table _ creates => creates.filter fun g => gsiId table g.name = id
  | _ => []

def firstDeclared (id : String) (events : List WorldEvent) : Option GsiSpec :=
  (events.flatMap (WorldEvent.declares id)).head?

namespace StateTable

variable {t : StateTable} {id id' : String}

def declaration (t : StateTable) (id : String) : Option (Json × String) :=
  (t id).map GsiState.declaration

def cursor (t : StateTable) (id : String) : Option Json := (t id).bind GsiState.lastPkCopied

@[simp] theorem updatePhase_declaration (phase : GsiPhase) (error : Option String) :
    (t.updatePhase id phase error).declaration id' = t.declaration id' := by
  unfold declaration
  by_cases h : id' = id
  · subst h
    rw [updatePhase_self, Option.map_map]
    rfl
  · rw [updatePhase_of_ne _ _ _ _ _ h]

@[simp] theorem updatePhase_cursor (phase : GsiPhase) (error : Option String) :
    (t.updatePhase id phase error).cursor id' = t.cursor id' := by
  unfold cursor
  by_cases h : id' = id
  · subst h
    rw [updatePhase_self, Option.bind_map]
    rfl
  · rw [updatePhase_of_ne _ _ _ _ _ h]

theorem setLastPkCopied_declaration (c : Json) :
    (t.setLastPkCopied id c).declaration id' = t.declaration id' := by
  unfold declaration setLastPkCopied
  by_cases h : id' = id
  · subst h
    rw [update_self, Option.map_map]
    rfl
  · rw [update_of_ne h]

theorem setLastPkCopied_cursor_of_ne (c : Json) (h : id' ≠ id) :
    (t.setLastPkCopied id c).cursor id' = t.cursor id' := by
  rw [cursor, setLastPkCopied, update_of_ne h, cursor]

theorem setLastPkCopied_cursor_self {row : GsiState} (c : Json) (h : t id = some row) :
    (t.setLastPkCopied id c).cursor id = some c := by
  rw [cursor, setLastPkCopied, update_self, h]
  rfl

theorem startsFresh_iff :
    t.StartsFresh id g ↔ t.declaration id = some g.declaration ∧ t.cursor id = none := by
  unfold StartsFresh declaration cursor
  rcases t id with _ | row
  · simp
  · simp [GsiState.declaration, GsiSpec.declaration, and_assoc]

end StateTable

theorem columnSpecsJson_inj {g' : GsiSpec} (h : columnSpecsJson g = columnSpecsJson g') :
    g.cols = g'.cols := by
  have hg : parseColumnSpecs (declaredRow "" "" g) = .ok g.cols := parseColumnSpecs_json rfl
  have hg' : parseColumnSpecs (declaredRow "" "" g) = .ok g'.cols := parseColumnSpecs_json h
  exact Except.ok.inj (hg.symm.trans hg')

theorem declaration_eq_iff {g' : GsiSpec} :
    g.declaration = g'.declaration ↔ g.cols = g'.cols ∧ g.indexName = g'.indexName := by
  unfold GsiSpec.declaration
  rw [Prod.mk.injEq]
  constructor
  · rintro ⟨hspecs, hindex⟩
    exact ⟨columnSpecsJson_inj hspecs, hindex⟩
  · rintro ⟨hcols, hindex⟩
    exact ⟨by rw [columnSpecsJson, columnSpecsJson, hcols], hindex⟩

variable {names : PgNames} {hex8 : String → String} {w w' : World} {event : WorldEvent}
  {table pgTable id : String} {t : StateTable}

theorem createDualWriteGsiInTx_declaration (g : GsiSpec) :
    (createDualWriteGsiInTx table pgTable t g).declaration id
      = (t.declaration id).or (if gsiId table g.name = id then some g.declaration else none) := by
  simp only [createDualWriteGsiInTx, StateTable.updatePhase_declaration]
  unfold StateTable.declaration
  rw [StateTable.insertStateRow_apply]
  rcases t id with _ | row
  · by_cases h : gsiId table g.name = id
    · simp [declaredRow, h, GsiState.declaration, GsiSpec.declaration]
    · simp [declaredRow, h]
  · simp

theorem createDualWriteGsiInTx_cursor (g : GsiSpec) :
    (createDualWriteGsiInTx table pgTable t g).cursor id = t.cursor id := by
  simp only [createDualWriteGsiInTx, StateTable.updatePhase_cursor]
  unfold StateTable.cursor
  rw [StateTable.insertStateRow_apply]
  rcases t id with _ | row
  · by_cases h : gsiId table g.name = id
    · simp [declaredRow, h]
    · simp [declaredRow, h]
  · simp

/-- Of the specs created under one key the first has its row, unless there was one. -/
theorem createAll_declaration (creates : List GsiSpec) :
    (creates.foldl (createDualWriteGsiInTx table pgTable) t).declaration id
      = (t.declaration id).or
        ((creates.filter fun g => gsiId table g.name = id).head?.map GsiSpec.declaration) := by
  induction creates generalizing t with
  | nil => simp
  | cons g creates ih =>
    rw [foldl_cons, ih, createDualWriteGsiInTx_declaration]
    by_cases h : gsiId table g.name = id
    · rcases t.declaration id with _ | d <;> simp [h]
    · simp [h]

theorem createAll_cursor (creates : List GsiSpec) :
    (creates.foldl (createDualWriteGsiInTx table pgTable) t).cursor id = t.cursor id := by
  induction creates generalizing t with
  | nil => rfl
  | cons g creates ih => rw [foldl_cons, ih, createDualWriteGsiInTx_cursor]

theorem startRemovals_keeps (e : TableEntry) (deletes : List String) :
    (startRemovals table e deletes t).declaration id = t.declaration id ∧
      (startRemovals table e deletes t).cursor id = t.cursor id := by
  unfold startRemovals
  induction deletes generalizing t with
  | nil => exact ⟨rfl, rfl⟩
  | cons name deletes ih =>
    rw [foldl_cons]
    split
    · have hrest := @ih (t.updatePhase (gsiId table name) .removingIndex none)
      rw [StateTable.updatePhase_declaration, StateTable.updatePhase_cursor] at hrest
      exact hrest
    · exact ih

/-- A step declares an index only where no row stands. -/
theorem WorldStep.declaration (h : WorldStep names hex8 w event w') :
    w'.states.declaration id = (w.states.declaration id).or
      ((event.declares id).head?.map GsiSpec.declaration) := by
  cases h with
  | updateTable htable hok =>
    rw [createAll_declaration, (startRemovals_keeps _ _).1]
    rfl
  | chunk cursor hrow =>
    rw [StateTable.setLastPkCopied_declaration]
    exact (Option.or_none).symm
  | phase | removed =>
    rw [StateTable.updatePhase_declaration]
    exact (Option.or_none).symm
  | _ => exact (Option.or_none).symm

/-- The cursor stays empty unless the step is a chunk of the index. -/
theorem WorldStep.cursor (h : WorldStep names hex8 w event w') :
    w'.states.cursor id = none ↔ w.states.cursor id = none ∧ ∀ c, event ≠ .chunk id c := by
  cases h with
  | updateTable htable hok =>
    rw [createAll_cursor, (startRemovals_keeps _ _).2]
    simp
  | @chunk id' row c hrow =>
    by_cases heq : id = id'
    · subst heq
      rw [StateTable.setLastPkCopied_cursor_self c hrow]
      simp
    · rw [StateTable.setLastPkCopied_cursor_of_ne c heq]
      simp [Ne.symm heq]
  | phase => simp
  | removed => simp
  | createTable => simp
  | deleteTable => simp
  | served => simp

theorem run_declaration (id : String)
    (hrun : Run (WorldStep names hex8) w trace w') :
    w'.states.declaration id = (w.states.declaration id).or
      ((firstDeclared id (trace.map Prod.snd)).map GsiSpec.declaration) := by
  induction hrun with
  | nil => exact (Option.or_none).symm
  | cons hfirst _ ih =>
    rw [ih, hfirst.declaration, Option.or_assoc, firstDeclared, firstDeclared, map_cons,
      flatMap_cons, List.head?_append, Option.map_or]

theorem run_cursor (id : String)
    (hrun : Run (WorldStep names hex8) w trace w') :
    w'.states.cursor id = none ↔
      w.states.cursor id = none ∧ ∀ c, .chunk id c ∉ trace.map Prod.snd := by
  induction hrun with
  | nil => simp
  | cons hfirst _ ih =>
    rw [ih, hfirst.cursor]
    simp only [map_cons, mem_cons, not_or]
    constructor
    · rintro ⟨⟨hc, hne⟩, hrest⟩
      exact ⟨hc, fun c => ⟨fun heq => hne c heq.symm, hrest c⟩⟩
    · rintro ⟨hc, hall⟩
      exact ⟨⟨hc, fun c heq => (hall c).1 heq.symm⟩, fun c => (hall c).2⟩

/-- An index declared after any history of its table starts fresh exactly when the first declaration
under its key had the same columns and index name and no chunk has been copied for it. -/
theorem redeclared_gsi_starts_fresh_iff {trace : List (World × WorldEvent)}
    {req : UpdateTableRequest} {creates : List GsiSpec} {g : GsiSpec}
    (hrun : Run (WorldStep names hex8) World.empty trace w)
    (hdeclare : WorldStep names hex8 w (.updateTable table req creates) w') (hg : g ∈ creates) :
    w'.states.StartsFresh (gsiId table g.name) g ↔
      (∀ g₀, firstDeclared (gsiId table g.name)
          (trace.map Prod.snd ++ [.updateTable table req creates]) = some g₀ →
        g₀.cols = g.cols ∧ g₀.indexName = g.indexName) ∧
      ∀ c, .chunk (gsiId table g.name) c ∉ trace.map Prod.snd := by
  have hwhole := hrun.concat hdeclare
  have hdecl := run_declaration (gsiId table g.name) hwhole
  have hcursor := run_cursor (gsiId table g.name) hwhole
  rw [map_append, map_singleton] at hdecl hcursor
  have hmem : g ∈ WorldEvent.declares (gsiId table g.name) (.updateTable table req creates) :=
    mem_filter.mpr ⟨hg, by simp⟩
  obtain ⟨g₀, hg₀⟩ : ∃ g₀, firstDeclared (gsiId table g.name)
      (trace.map Prod.snd ++ [.updateTable table req creates]) = some g₀ := by
    rw [firstDeclared, ← Option.isSome_iff_exists, isSome_head?]
    refine ne_nil_of_mem (mem_flatMap.mpr ⟨_, ?_, hmem⟩)
    exact mem_append_right _ mem_cons_self
  have hdecl₀ : w'.states.declaration (gsiId table g.name) = some g₀.declaration := by
    rw [hdecl, hg₀]
    rfl
  rw [StateTable.startsFresh_iff, hdecl₀, Option.some.injEq, declaration_eq_iff, hcursor, hg₀]
  constructor
  · rintro ⟨hsame, _, hchunks⟩
    refine ⟨?_, fun c hc => hchunks c (mem_append_left _ hc)⟩
    rintro _ ⟨⟩
    exact hsame
  · rintro ⟨hsame, hchunks⟩
    refine ⟨hsame g₀ rfl, rfl, fun c hc => ?_⟩
    rcases mem_append.mp hc with hc | hc
    · exact hchunks c hc
    · cases mem_singleton.mp hc

def ordersPlan : CreateTablePlan := ⟨"orders", "id", .s, none, [], []⟩

def createByTag : UpdateTableRequest :=
  ⟨[⟨"by-tag", [⟨"tag", "HASH"⟩], some "ALL"⟩], [], some [⟨"tag", "S"⟩]⟩

def createByTagOnKind : UpdateTableRequest :=
  ⟨[⟨"by-tag", [⟨"kind", "HASH"⟩], some "ALL"⟩], [], some [⟨"kind", "S"⟩]⟩

def deleteByTag : UpdateTableRequest := ⟨[], ["by-tag"], none⟩

def byTagOn (attr : String) : GsiSpec :=
  plannedSpec (fun s => s) "rekt_t_orders" ⟨"by-tag", (attr, .s), none⟩ .dualWrite false
    (some creatingReason)

/-- To the end of its removal. -/
def byTagLife (copied : List WorldEvent) : List WorldEvent :=
  [.createTable ordersPlan, .updateTable "orders" createByTag [byTagOn "tag"]] ++ copied ++
  [.phase "orders::by-tag" .indexing none, .phase "orders::by-tag" .active none,
    .served "orders" "by-tag" true none, .updateTable "orders" deleteByTag [],
    .phase "orders::by-tag" .removingColumn none, .removed "orders" "by-tag"]

theorem redeclared_gsi_starts_fresh_sample : ∃ trace w w',
    Run (WorldStep plainNames fun s => s) World.empty trace w ∧
    trace.map Prod.snd = byTagLife [] ∧
    WorldStep plainNames (fun s => s) w (.updateTable "orders" createByTag [byTagOn "tag"]) w' ∧
    w'.states.StartsFresh "orders::by-tag" (byTagOn "tag") := by
  have hrun : ∃ trace w w', Run (WorldStep plainNames fun s => s) World.empty trace w ∧
      trace.map Prod.snd = byTagLife [] ∧
      WorldStep plainNames (fun s => s) w (.updateTable "orders" createByTag [byTagOn "tag"]) w' :=
    ⟨_, _, _, .cons (.createTable rfl rfl) (.cons (.updateTable rfl rfl) (.cons (.phase _ _ _)
      (.cons (.phase _ _ _) (.cons (.served _ _ _ rfl) (.cons (.updateTable rfl rfl)
      (.cons (.phase _ _ _) (.cons (.removed _ rfl) (.nil _)))))))), rfl, .updateTable rfl rfl⟩
  obtain ⟨trace, w, w', hrun, htrace, hdeclare⟩ := hrun
  refine ⟨trace, w, w', hrun, htrace, hdeclare, ?_⟩
  refine (redeclared_gsi_starts_fresh_iff hrun hdeclare mem_cons_self).mpr ?_
  rw [htrace]
  constructor
  · intro g₀ hg₀
    have hfirst : firstDeclared "orders::by-tag"
        (byTagLife [] ++ [.updateTable "orders" createByTag [byTagOn "tag"]])
          = some (byTagOn "tag") := rfl
    cases hfirst.symm.trans hg₀
    exact ⟨rfl, rfl⟩
  · intro c hc
    simp [byTagLife] at hc

/-- Declared again on `kind`, the lifecycle reads the columns and the cursor of the first life. -/
theorem redeclared_gsi_reads_stale_row : ∃ trace w w' row,
    Run (WorldStep plainNames fun s => s) World.empty trace w ∧
    trace.map Prod.snd = byTagLife [.chunk "orders::by-tag" (.str "7")] ∧
    WorldStep plainNames (fun s => s) w
      (.updateTable "orders" createByTagOnKind [byTagOn "kind"]) w' ∧
    w'.states "orders::by-tag" = some row ∧ row.phase = .backfilling ∧
    parseColumnSpecs row = .ok [⟨"tag", "tag", .s⟩] ∧ row.lastPkCopied = some (.str "7") :=
  ⟨_, _, _, _, .cons (.createTable rfl rfl) (.cons (.updateTable rfl rfl) (.cons (.chunk _ rfl)
    (.cons (.phase _ _ _) (.cons (.phase _ _ _) (.cons (.served _ _ _ rfl)
    (.cons (.updateTable rfl rfl) (.cons (.phase _ _ _) (.cons (.removed _ rfl) (.nil _))))))))),
    rfl, .updateTable rfl rfl, rfl, rfl, rfl, rfl⟩

end Rektifier
