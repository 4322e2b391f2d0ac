import Rektifier.TableDescription
import Rektifier.EmittedColumns
import Rektifier.PassVerdicts

namespace Rektifier

open Fallible List

variable {gsis : List GsiEntry}

/-- What a description and a declaration say of an index. -/
structure IndexShape where
  name : String
  keySchema : List KeySchemaElement
  projectionType : String
  nonKeyAttributes : Option (List String)

def LsiDeclaration.shape (d : LsiDeclaration) : IndexShape :=
  ⟨d.indexName, hashFirst d.keySchema, d.projectionType.getD "ALL", d.nonKeyAttributes⟩

def GsiDeclaration.shape (d : GsiDeclaration) : IndexShape :=
  ⟨d.indexName, hashFirst d.keySchema, d.projectionType.getD "ALL", d.nonKeyAttributes⟩

def LsiDescription.shape (d : LsiDescription) : IndexShape :=
  ⟨d.indexName, d.keySchema, d.projection.projectionType.getD "ALL", d.projection.nonKeyAttributes⟩

def GsiDescription.shape (d : GsiDescription) : IndexShape :=
  ⟨d.indexName, d.keySchema, d.projection.projectionType.getD "ALL", d.projection.nonKeyAttributes⟩

namespace CreateTableBody

variable (body : CreateTableBody)

/-- The description gives back what was declared. -/
structure Described (d : TableDescription) : Prop where
  keySchema : d.keySchema = hashFirst body.keySchema
  attributes : ∀ ad, ad ∈ d.attributeDefinitions ↔ ad ∈ body.attributeDefinitions
  lsis : ∀ shape, shape ∈ (d.localSecondaryIndexes.getD []).map LsiDescription.shape ↔
    shape ∈ body.lsis.map LsiDeclaration.shape
  gsis : ∀ shape, shape ∈ (d.globalSecondaryIndexes.getD []).map GsiDescription.shape ↔
    shape ∈ body.gsis.map GsiDeclaration.shape

def KeysTyped (ks : List KeySchemaElement) (keys : List (String × KeyType)) : Prop :=
  List.Forall₂ (fun kse c => kse.attributeName = c.1 ∧ ⟨c.1, c.2.tag⟩ ∈ body.attributeDefinitions)
    (hashFirst ks) keys

/-- The translator's schema has the declared keys and indexes. -/
structure Resolved (s : CatalogSchema) : Prop where
  base : body.KeysTyped body.keySchema s.keys
  lsis : ∀ name keys, (∃ l, s.lsis.get name = some l ∧
      keys = [(s.pkAttr, s.pkType), (l.sortAttr, l.sortType)]) ↔
    ∃ decl ∈ body.lsis, decl.indexName = name ∧ body.KeysTyped decl.keySchema keys
  gsis : ∀ name keys, (∃ g, s.gsis.get name = some g ∧
      keys = (g.partitionAttr, g.partitionType) :: (sortKey g.sortAttr g.sortType).toList) ↔
    ∃ decl ∈ body.gsis, decl.indexName = name ∧ body.KeysTyped decl.keySchema keys

end CreateTableBody

theorem tag_mem_of_definedAs {table attr : String} {ads : List AttributeDefinition} {t : KeyType}
    (h : DefinedAs table ads attr t) : ⟨attr, t.tag⟩ ∈ ads := by
  obtain ⟨⟨⟨name, type⟩, had, rfl⟩, htypes⟩ := h
  have htype : parseAttributeType table name type = .ok t := htypes _ had rfl
  have htag : type = t.tag := by
    unfold parseAttributeType at htype
    split at htype
    · cases htype
      rfl
    · cases htype
      rfl
    · cases htype
      rfl
    · cases htype
  exact htag ▸ had

/-- Seen so that only the declaration counts, not the plan. -/
theorem map_zipWith_of_forall₂ {α β γ δ : Type} {R : α → β → Prop} {as : List α} {bs : List β}
    (h : List.Forall₂ R as bs) {f : β → α → γ} {g : γ → δ} {k : α → δ}
    (hg : ∀ a b, R a b → g (f b a) = k a) : (List.zipWith f bs as).map g = as.map k := by
  induction h with
  | nil => rfl
  | cons hab _ ih => rw [zipWith_cons_cons, map_cons, map_cons, hg _ _ hab, ih]

theorem mem_indexDescriptions {α : Type} (name : α → String) {descs : List α} {d : α} :
    d ∈ (indexDescriptions name descs).getD [] ↔ d ∈ descs := by
  unfold indexDescriptions
  split
  · next hnone => rw [hnone]; rfl
  · exact (perm_insertionSort _ _).mem_iff

theorem sortKey_map (s : Option (String × KeyType)) : sortKey (s.map Prod.fst)
    (s.map Prod.snd) = s := by
  cases s <;> rfl

namespace CreateTableBody

variable (body : CreateTableBody) (hex8 : String → String) (plan : CreateTablePlan)

def createdLsis : List LsiRecord :=
  buildLsiSpecs hex8 (sanitizePgTableName hex8 plan.tableName) plan.lsis body.lsis

def createdGsis : List GsiEntry :=
  buildGsiSpecs hex8 (sanitizePgTableName hex8 plan.tableName) plan.gsis body.gsis

/-- What the created row is read as. -/
def createdEntry (now : Int) : TableRecord :=
  (body.createdRow hex8 plan now).entry .active plan.pkType (plan.sk.map Prod.snd)
    (body.createdLsis hex8 plan) (body.createdGsis hex8 plan)

end CreateTableBody

theorem getD_declared (projectionType : Option String) (nonKey : Option (List String)) :
    (declaredProjection projectionType nonKey).projectionType.getD "ALL" =
      projectionType.getD "ALL" := by
  cases projectionType <;> rfl

theorem createdEntry_keys (body : CreateTableBody) (hex8 : String → String) (plan : CreateTablePlan)
    (now : Int) :
    (body.createdEntry hex8 plan now).schema.keys =
    (plan.pkAttr, plan.pkType) :: plan.sk.toList := by
  show _ :: (sortKey (plan.sk.map Prod.fst) (plan.sk.map Prod.snd)).toList = _
  rw [sortKey_map]
  rfl

theorem createdRow_reads (body : CreateTableBody) (hex8 : String → String) (plan : CreateTablePlan)
    (now : Int) :
    (body.createdRow hex8 plan now).rowToEntry = .ok (body.createdEntry hex8 plan now) := by
  have hsort : (body.createdRow hex8 plan now).parsedSkType = .ok (plan.sk.map Prod.snd) ∧
      (body.createdRow hex8 plan now).checkSortKey (plan.sk.map Prod.snd) = .ok () := by
    obtain ⟨tableName, pkAttr, pkType, sk, lsis, gsis⟩ := plan
    cases sk with
    | none => exact ⟨rfl, rfl⟩
    | some s =>
      refine ⟨?_, rfl⟩
      show (parseStoredKeyType tableName s.2.tag).map some = _
      rw [parseStoredKeyType_tag]
      rfl
  exact (MetadataRow.rowToEntry_ok_iff _).mpr ⟨_, _, _, _, _, ⟨rfl,
    parseStoredKeyType_tag _ plan.pkType, hsort.1, hsort.2, lsiSpecsFromJson_toJson _ _,
    gsiSpecsFromJson_toJson _ _⟩, rfl⟩

section Created

variable {body : CreateTableBody} {plan : CreateTablePlan}
  (hplan : validateCreateTable body.request = .ok plan)
include hplan

theorem lsis_declared : List.Forall₂ (fun (decl : LsiDeclaration) (l : String × String × KeyType) =>
    l.1 = decl.indexName ∧ hashFirst decl.keySchema = keySchemaOf plan.pkAttr (some l.2.1) ∧
      plan.Key l.2) body.lsis plan.lsis := by
  obtain ⟨_, _, _, h⟩ := validateLsiStructures_planned (validateCreateTable_ok hplan).2.2.2
  have hlsis : body.request.lsis = body.lsis.map LsiDeclaration.toLocalSecondaryIndex := by
    unfold CreateTableBody.lsis CreateTableRequest.lsis CreateTableBody.request
    cases body.localSecondaryIndexes <;> rfl
  rw [hlsis, forall₂_map_left_iff] at h
  refine forall₂_iff_zip.mpr ⟨h.length_eq, fun {decl l} hzip => ?_⟩
  obtain ⟨hname, hfirst, _⟩ := (forall₂_iff_zip.mp h).2 hzip
  exact ⟨hname, hfirst, .inr (.inl (mem_map_of_mem (of_mem_zip hzip).2))⟩

theorem gsis_declared : List.Forall₂ (fun (decl : GsiDeclaration) (g : GsiPlan) =>
    g.name = decl.indexName ∧
      hashFirst decl.keySchema = keySchemaOf g.partition.1 (g.sort.map Prod.fst) ∧
      ∀ c ∈ g.partition :: g.sort.toList, plan.Key c) body.gsis plan.gsis := by
  obtain ⟨_, hstructures, hgsis, _⟩ := validateCreateTable_ok hplan
  obtain ⟨_, _, h⟩ := validateGsiPlans_planned hgsis hstructures
  have hdecl : body.request.gsis = body.gsis.map GsiDeclaration.toGlobalSecondaryIndex := by
    unfold CreateTableBody.gsis CreateTableRequest.gsis CreateTableBody.request
    cases body.globalSecondaryIndexes <;> rfl
  rw [hdecl, forall₂_map_left_iff] at h
  refine forall₂_iff_zip.mpr ⟨h.length_eq, fun {decl g} hzip => ?_⟩
  obtain ⟨hname, hfirst, _⟩ := (forall₂_iff_zip.mp h).2 hzip
  exact ⟨hname, hfirst, fun c hc => .inr (.inr ⟨g, (of_mem_zip hzip).2, hc⟩)⟩

theorem keysTyped_iff {ks : List KeySchemaElement} {hash : String × KeyType}
    {range : Option (String × KeyType)}
    (hks : hashFirst ks = keySchemaOf hash.1 (range.map Prod.fst))
    (hkeys : ∀ c ∈ hash :: range.toList, plan.Key c) {keys : List (String × KeyType)} :
    body.KeysTyped ks keys ↔ keys = hash :: range.toList := by
  have hone : ∀ c ∈ hash :: range.toList, ∀ d : String × KeyType,
      (c.1 = d.1 ∧ ⟨d.1, d.2.tag⟩ ∈ body.attributeDefinitions) ↔ d = c := by
    rintro ⟨attr, t⟩ hc ⟨attr', t'⟩
    have hdefined := key_definedAs hplan (hkeys _ hc)
    constructor
    · rintro ⟨hattr : attr = attr', hmem⟩
      subst hattr
      have htype := hdefined.2 _ hmem rfl
      have hsame : t' = t := by cases t' <;> exact Except.ok.inj htype
      rw [hsame]
    · rintro h
      cases h
      exact ⟨rfl, tag_mem_of_definedAs hdefined⟩
  unfold CreateTableBody.KeysTyped
  rw [hks]
  cases range with
  | none =>
    constructor
    · rintro (_ | ⟨hd, _ | _⟩)
      rw [(hone hash mem_cons_self _).mp hd]
      rfl
    · rintro rfl
      exact .cons ((hone hash mem_cons_self _).mpr rfl) .nil
  | some sort =>
    have hsort : sort ∈ hash :: (some sort).toList := mem_cons_of_mem _ mem_cons_self
    constructor
    · rintro (_ | ⟨hd, _ | ⟨hd', _ | _⟩⟩)
      rw [(hone hash mem_cons_self _).mp hd, (hone sort hsort _).mp hd']
      rfl
    · rintro rfl
      exact .cons ((hone hash mem_cons_self _).mpr rfl) (.cons ((hone sort hsort _).mpr rfl) .nil)

variable (hex8 : String → String) (now : Int)

theorem lsis_built : (body.createdLsis hex8 plan).map (fun l => (l.name, l.sortAttr, l.sortType)) =
    plan.lsis := by
  unfold CreateTableBody.createdLsis buildLsiSpecs
  rw [zipWith_comm]
  refine Eq.trans (map_zipWith_of_forall₂ (lsis_declared hplan).flip (k := id) ?_) (map_id _)
  intro l decl _
  rfl

theorem gsis_built : (body.createdGsis hex8 plan).map (fun g => (g.name, g.keys)) =
    plan.gsis.map fun g => (g.name, g.partition :: g.sort.toList) := by
  unfold CreateTableBody.createdGsis buildGsiSpecs
  rw [zipWith_comm]
  refine map_zipWith_of_forall₂ (gsis_declared hplan).flip fun g decl _ => ?_
  rw [GsiEntry.keys, sortKey_map]

theorem gsis_names : ((body.createdGsis hex8 plan).map GsiEntry.name).Nodup := by
  have hbuilt := congrArg (List.map Prod.fst) (gsis_built hplan hex8)
  rw [map_map, map_map] at hbuilt
  exact hbuilt ▸ (validateCreateTable_names hplan).2

theorem describedAttrs_key
    (hgsis : ∀ g, g ∈ gsis ↔ g ∈ body.createdGsis hex8 plan) {c : String × KeyType} :
    (c ∈ (body.createdEntry hex8 plan now).describedAttrs gsis → plan.Key c) ∧
      (plan.Key c → c.1 ∈ ((body.createdEntry hex8 plan now).describedAttrs gsis).map Prod.fst) := by
  have hlsi : c ∈ (body.createdEntry hex8 plan now).lsis.map (fun l => (l.sortAttr, l.sortType)) ↔
      c ∈ plan.lsis.map Prod.snd := by
    rw [← lsis_built hplan hex8, map_map]
    rfl
  have hgsi : c ∈ gsis.flatMap GsiEntry.keys ↔
      ∃ g ∈ plan.gsis, c ∈ g.partition :: g.sort.toList := by
    have hbuilt : (∃ key ∈ (body.createdGsis hex8 plan).map fun g => (g.name, g.keys), c ∈ key.2) ↔
        ∃ key ∈ plan.gsis.map fun g => (g.name, g.partition :: g.sort.toList), c ∈ key.2 := by
      rw [gsis_built hplan]
    simp only [mem_map, exists_exists_and_eq_and] at hbuilt
    rw [← hbuilt, mem_flatMap]
    exact exists_congr fun g => and_congr_left fun _ => hgsis g
  unfold TableRecord.describedAttrs CreateTablePlan.Key
  rw [createdEntry_keys, ← hlsi, ← hgsi, ← mem_append]
  constructor
  · intro h
    exact of_mem_foldl_emit _ _ h
  · intro h
    rw [mem_foldl_emit]
    exact h.imp (mem_map_of_mem (f := Prod.fst)) (mem_map_of_mem (f := Prod.fst))

theorem mem_createdGsis
    (hvalues : gsis.Perm ((body.createdEntry hex8 plan now).gsis.entries.map Prod.snd))
    (g : GsiEntry) :
    g ∈ gsis ↔ g ∈ body.createdGsis hex8 plan := by
  have hget : ∀ name, (body.createdEntry hex8 plan now).gsis.get name = some g ↔
      (name, g) ∈ (body.createdGsis hex8 plan).map fun s => (s.name, s) :=
    fun name => OrderedMap.get_ofList_iff (by rw [map_map]; exact gsis_names hplan hex8)
  rw [TableRecord.mem_values_iff hvalues]
  constructor
  · rintro ⟨name, h⟩
    obtain ⟨s, hs, heq⟩ := mem_map.mp ((hget name).mp h)
    cases heq
    exact hs
  · intro h
    exact ⟨g.name, (hget g.name).mpr (mem_map_of_mem (f := fun s => (s.name, s)) h)⟩

theorem createdEntry_described
    (hvalues : gsis.Perm ((body.createdEntry hex8 plan now).gsis.entries.map Prod.snd)) :
    body.Described ((body.createdEntry hex8 plan now).tableDescriptionFromEntry gsis) := by
  have hgsis := mem_createdGsis hplan hex8 now hvalues
  refine ⟨?_, ?_, ?_, ?_⟩
  · obtain ⟨_, _, hfirst, _⟩ := validateKeySchemaAndAttrs_ok (validateCreateTable_ok hplan).1
    show keySchemaOf plan.pkAttr ((sortKey (plan.sk.map Prod.fst) (plan.sk.map Prod.snd)).map Prod.fst) = _
    rw [sortKey_map]
    exact hfirst.symm
  · intro ad
    have hmem : ad ∈ ((body.createdEntry hex8 plan now).tableDescriptionFromEntry
        gsis).attributeDefinitions ↔
        ∃ c ∈ (body.createdEntry hex8 plan now).describedAttrs gsis, ⟨c.1, c.2.tag⟩ = ad :=
      mem_map
    rw [hmem]
    constructor
    · rintro ⟨c, hc, rfl⟩
      exact tag_mem_of_definedAs (key_definedAs hplan ((describedAttrs_key hplan hex8 now hgsis).1 hc))
    · intro had
      -- the definition is of a key, and that key is described with the same type
      have hcol := (mem_emittedCols_iff_defined hplan ad.attributeName).mpr (mem_map_of_mem had)
      obtain ⟨k, hk, hname⟩ := mem_map.mp hcol
      have hkey := key_of_mem_emittedCols hk
      obtain ⟨c, hc, heq⟩ := mem_map.mp ((describedAttrs_key hplan hex8 now hgsis).2 hkey)
      refine ⟨c, hc, ?_⟩
      have hdefined := tag_mem_of_definedAs
        (key_definedAs hplan ((describedAttrs_key hplan hex8 now hgsis).1 hc))
      exact inj_on_of_nodup_map (validateCreateTable_attrs_nodup hplan) hdefined had
        (heq.trans hname)
  · intro shape
    have hshapes : (body.createdLsis hex8 plan).map
        (fun l => (l.description plan.pkAttr).shape) = body.lsis.map LsiDeclaration.shape := by
      refine map_zipWith_of_forall₂ (lsis_declared hplan) fun decl l hl => ?_
      rw [LsiDeclaration.shape, hl.2.1, ← hl.1, ← getD_declared]
      rfl
    rw [← hshapes, mem_map, mem_map]
    simp only [TableRecord.tableDescriptionFromEntry, mem_indexDescriptions, mem_map,
      exists_exists_and_eq_and]
    rfl
  · intro shape
    have hshapes : (body.createdGsis hex8 plan).map (fun g => g.description.shape) =
        body.gsis.map GsiDeclaration.shape := by
      refine map_zipWith_of_forall₂ (gsis_declared hplan) fun decl g hg => ?_
      rw [GsiDeclaration.shape, hg.2.1, ← hg.1, ← getD_declared]
      rfl
    rw [← hshapes, mem_map, mem_map]
    simp only [TableRecord.tableDescriptionFromEntry, mem_indexDescriptions, mem_map,
      exists_exists_and_eq_and, hgsis]

theorem createdEntry_resolved : body.Resolved (body.createdEntry hex8 plan now).schema := by
  have hkeys : plan.Key (plan.pkAttr, plan.pkType) := .inl mem_cons_self
  refine ⟨?_, ?_, ?_⟩
  · obtain ⟨_, _, hfirst, _⟩ := validateKeySchemaAndAttrs_ok (validateCreateTable_ok hplan).1
    exact (keysTyped_iff hplan hfirst fun c hc => .inl hc).mpr (createdEntry_keys body hex8 plan now)
  · intro name keys
    have hnames : ((body.createdLsis hex8 plan).map fun l => l.name).Nodup := by
      have hbuilt := congrArg (List.map Prod.fst) (lsis_built hplan hex8)
      rw [map_map] at hbuilt
      exact hbuilt ▸ (validateCreateTable_names hplan).1
    have hget : ∀ l, (body.createdEntry hex8 plan now).schema.lsis.get name = some l ↔
        (name, l) ∈ (body.createdLsis hex8 plan).map fun s => (s.name, s.mirror) :=
      fun l => OrderedMap.get_ofList_iff (by rw [map_map]; exact hnames)
    have hplans : (∃ l, (body.createdEntry hex8 plan now).schema.lsis.get name = some l ∧
        keys = [(plan.pkAttr, plan.pkType), (l.sortAttr, l.sortType)]) ↔
        ∃ l ∈ plan.lsis, l.1 = name ∧ keys = [(plan.pkAttr, plan.pkType), l.2] := by
      rw [← lsis_built hplan hex8]
      simp only [hget, mem_map, Prod.mk.injEq, exists_exists_and_eq_and]
      constructor
      · rintro ⟨_, ⟨s, hs, hname, rfl⟩, hkeys⟩
        exact ⟨s, hs, hname, hkeys⟩
      · rintro ⟨s, hs, hname, hkeys⟩
        exact ⟨_, ⟨s, hs, hname, rfl⟩, hkeys⟩
    refine hplans.trans (exists_iff_of_forall₂ (lsis_declared hplan) ?_).symm
    rintro decl _ l ⟨hname, hfirst, hkey⟩
    rw [hname]
    have hboth : ∀ c ∈ (plan.pkAttr, plan.pkType) :: (some l.2).toList, plan.Key c :=
      forall_mem_cons.mpr ⟨hkeys, forall_mem_singleton.mpr hkey⟩
    exact and_congr_right fun _ => keysTyped_iff hplan hfirst hboth
  · intro name keys
    have hget : ∀ g, (body.createdEntry hex8 plan now).schema.gsis.get name = some g ↔
        (name, g) ∈ (body.createdGsis hex8 plan).map fun s => (s.name, s.mirror) :=
      fun g => OrderedMap.get_ofList_iff (by rw [map_map]; exact gsis_names hplan hex8)
    have hplans : (∃ g, (body.createdEntry hex8 plan now).schema.gsis.get name = some g ∧
        keys = (g.partitionAttr, g.partitionType) :: (sortKey g.sortAttr g.sortType).toList) ↔
        ∃ g ∈ plan.gsis, g.name = name ∧ keys = g.partition :: g.sort.toList := by
      have hbuilt : (∃ key ∈ (body.createdGsis hex8 plan).map fun g => (g.name, g.keys),
          key.1 = name ∧ keys = key.2) ↔
          ∃ key ∈ plan.gsis.map fun g => (g.name, g.partition :: g.sort.toList),
            key.1 = name ∧ keys = key.2 := by
        rw [gsis_built hplan]
      simp only [mem_map, exists_exists_and_eq_and] at hbuilt
      rw [← hbuilt]
      simp only [hget, mem_map, Prod.mk.injEq]
      constructor
      · rintro ⟨_, ⟨s, hs, hname, rfl⟩, hkeys⟩
        exact ⟨s, hs, hname, hkeys⟩
      · rintro ⟨s, hs, hname, hkeys⟩
        exact ⟨_, ⟨s, hs, hname, rfl⟩, hkeys⟩
    refine hplans.trans (exists_iff_of_forall₂ (gsis_declared hplan) ?_).symm
    rintro decl _ g ⟨hname, hfirst, hkey⟩
    rw [hname]
    exact and_congr_right fun _ => keysTyped_iff hplan hfirst hkey

end Created

/-- The row of an accepted request is read as an entry that is described, with the GSIs in whatever
order, as declared, and that translators resolve to the declared keys. -/
theorem created_table_described {body : CreateTableBody} {plan : CreateTablePlan}
    (hplan : validateCreateTable body.request = .ok plan) (hex8 : String → String) (now : Int) :
    ∃ e, (body.createdRow hex8 plan now).rowToEntry = .ok e ∧ body.Resolved e.schema ∧
      ∀ gsis : List GsiEntry, gsis.Perm (e.gsis.entries.map Prod.snd) →
        body.Described (e.tableDescriptionFromEntry gsis) :=
  ⟨body.createdEntry hex8 plan now, createdRow_reads body hex8 plan now,
    createdEntry_resolved hplan hex8 now,
    fun _ hvalues => createdEntry_described hplan hex8 now hvalues⟩

/-- An LSI and a GSI that share an attribute. -/
def describedBody (keySchema : List KeySchemaElement) : CreateTableBody where
  tableName := "orders"
  keySchema := keySchema
  attributeDefinitions := [⟨"id", "S"⟩, ⟨"at", "N"⟩, ⟨"tag", "S"⟩]
  globalSecondaryIndexes :=
    some [⟨⟨"by-tag", [⟨"tag", "HASH"⟩, ⟨"at", "RANGE"⟩], some "INCLUDE"⟩, some ["note"]⟩]
  localSecondaryIndexes := some [⟨⟨"tagged", [⟨"id", "HASH"⟩, ⟨"tag", "RANGE"⟩], none⟩, none⟩]
  streamEnabled := none
  billingMode := none
  provisionedThroughput := none
  tags := none

def describedPlan : CreateTablePlan :=
  ⟨"orders", "id", .s, some ("at", .n), [("tagged", "tag", .s)],
    [⟨"by-tag", ("tag", .s), some ("at", .n)⟩]⟩

theorem created_table_described_shared :
    validateCreateTable (describedBody [⟨"id", "HASH"⟩, ⟨"at", "RANGE"⟩]).request = .ok describedPlan ∧
    ∃ e, ((describedBody [⟨"id", "HASH"⟩, ⟨"at", "RANGE"⟩]).createdRow id describedPlan 0).rowToEntry =
        .ok e ∧ (describedBody [⟨"id", "HASH"⟩, ⟨"at", "RANGE"⟩]).Described
          (e.tableDescriptionFromEntry (e.gsis.entries.map Prod.snd)) := by
  have hplan : validateCreateTable (describedBody [⟨"id", "HASH"⟩, ⟨"at", "RANGE"⟩]).request =
      .ok describedPlan := rfl
  obtain ⟨e, hread, _, hdescribed⟩ := created_table_described hplan id 0
  exact ⟨hplan, e, hread, hdescribed _ (List.Perm.refl _)⟩

/-- A key schema with RANGE first is accepted, and described with HASH first. -/
theorem range_first_described : ∃ e,
    validateCreateTable (describedBody [⟨"at", "RANGE"⟩, ⟨"id", "HASH"⟩]).request = .ok describedPlan ∧
    ((describedBody [⟨"at", "RANGE"⟩, ⟨"id", "HASH"⟩]).createdRow id describedPlan 0).rowToEntry =
      .ok e ∧
    (e.tableDescriptionFromEntry (e.gsis.entries.map Prod.snd)).keySchema ≠
      (describedBody [⟨"at", "RANGE"⟩, ⟨"id", "HASH"⟩]).keySchema :=
  ⟨_, rfl, createdRow_reads _ _ _ _, by decide⟩

end Rektifier
